import AvmSdk.Contracts.Audit.Ledger

/-!
# The program computes the ledger

A layout is lawful if its states are the encodings of valid ledgers, and if reading and patching a
field of the encoding reads and changes that field of the ledger. Over a lawful layout the program
does what the ledger does.

* `Layout.Lawful`: what a layout must satisfy.
* `Layout.Lawful.isolated_eq`, `Layout.Lawful.appliedTo_changePatches`: one message.
* `Layout.Lawful.stages_eq`, `Layout.Lawful.batch_eq`, `Layout.Lawful.appliedTo_patches`: a batch.
-/

namespace AvmSdk.Audit

open Wire Sdk Contracts Hub

/-- **What a layout must satisfy**, with the states of the ledgers. -/
structure Layout.Lawful [Target] (k : Layout) (encode : Ledger → Bytes) (recordsAt : U8 → ℕ) :
    Prop where
  validate_iff : ∀ {b n}, k.validate b = .ok n ↔
    ∃ l : Ledger, l.Valid ∧ encode l = b ∧ l.count.toNat = n
  injective : ∀ {l l' : Ledger}, l.Valid → l'.Valid → encode l = encode l' → l = l'
  owner_eq : ∀ {l : Ledger}, l.Valid → arrayAt eArgs 32 (encode l) k.owner = .ok l.owner
  source_eq : ∀ {l : Ledger} {i : ℕ}, l.Valid → i < l.count.toNat →
    k.sourceAt (encode l) i = .ok (l.sources (slot i))
  record_eq : ∀ {l : Ledger} {i : ℕ}, l.Valid → i < l.count.toNat →
    k.record (encode l) i = .ok (l.records (slot i))
  records_eq : ∀ {l : Ledger}, l.Valid → k.records (encode l) = recordsAt l.count
  records_lt : ∀ {l : Ledger} {i : ℕ}, l.Valid → i < l.count.toNat →
    recordsAt l.count + i * recordBytes < 2 ^ 32
  bindings_lt : ∀ {i : ℕ}, i < maxMembers → k.bindings + i * 64 < 2 ^ 32
  patch_source : ∀ {l : Ledger} {i : ℕ} (a : AccountAddress), l.Valid → i < l.count.toNat →
    patch (encode l) (k.bindings + i * 64) a.toBytes = encode (l.withSource i a)
  patch_record : ∀ {l : Ledger} {i : ℕ} (r : Record), l.Valid → i < l.count.toNat →
    patch (encode l) (recordsAt l.count + i * recordBytes) r.encode = encode (l.withRecord i r)

section

variable [Target]

omit [Target] in
/-- The length of a record. -/
@[simp] theorem Record.length_encode (r : Record) : r.encode.length = recordBytes := by
  simp [Record.encode, recordBytes]

omit [Target] in
/-- **Every report** that is taken has an event. -/
theorem exists_auditEvent (e : Entry) :
    ∃ intent : EventIntent, ∀ k, auditEvent k e = .ok { intent with inputIndex := k } := by
  have hone : ∃ intent, auditEvent 0 e = .ok intent := by
    refine exists_event rfl (by simp only [List.length_cons, List.length_nil]; decide) ?_ ?_
    · simp only [List.forall_mem_cons, EventField.Fits, EventField.packed, EventValue.encoded,
        length_toLe]
      decide
    · simp only [List.map_cons, List.map_nil, EventField.packed]
      decide
  obtain ⟨intent, hintent⟩ := hone
  refine ⟨intent, fun k => ?_⟩
  unfold auditEvent event at hintent ⊢
  simp only [bind_ok_iff, pure_ok_iff] at hintent ⊢
  obtain ⟨eventClass, hclass, fields, hfields, rfl⟩ := hintent
  exact ⟨eventClass, hclass, fields, hfields, rfl⟩

omit [Target] in
/-- The events of a report in a batch are those of the report alone, at its index. -/
theorem entryEvents_eq (k : U32) (e : Entry) : ∃ intent, auditEvent k e = .ok intent ∧
    Ledger.entryEvents k e = [intent] ∧
    Ledger.entryEvents k e = (Ledger.entryEvents 0 e).map fun i => { i with inputIndex := k } := by
  obtain ⟨intent, hintent⟩ := exists_auditEvent e
  refine ⟨_, hintent k, ?_, ?_⟩
  · unfold Ledger.entryEvents
    rw [hintent]
    rfl
  · unfold Ledger.entryEvents
    rw [hintent, hintent]
    rfl

end

namespace Ledger

/-- A report that is taken is one of a member. -/
theorem active_of_receive [Target] {l : Ledger} {source : AccountAddress} {message : CanonicalMessage}
    {e : Entry} (h : l.receive source message = .ok e) : e.index < l.count.toNat := by
  cases message with
  | external m => cases h
  | internal m => exact (receive_ok_iff.mp h).active

/-- Records are written one after the other. -/
theorem foldl_withRecord {records : Records} (is : List (Fin maxMembers)) (l : Ledger) :
    is.foldl (fun k i => k.withRecord i.val (records i)) l =
      { l with records := fun i => if i ∈ is then records i else l.records i } := by
  induction is generalizing l with
  | nil => simp
  | cons j is ih =>
      rw [List.foldl_cons, ih]
      unfold withRecord
      congr 1
      funext i
      simp only [slot_val, List.mem_cons]
      by_cases hi : i ∈ is
      · rw [if_pos hi, if_pos (Or.inr hi)]
      · by_cases hij : i = j
        · rw [if_neg hi, if_pos (Or.inl hij), hij, Function.update_self]
        · rw [if_neg hi, if_neg (by tauto), Function.update_of_ne hij]

end Ledger

namespace Layout

open Ledger

/-- The patches of a change. -/
def changePatches (self : Layout) (b : Bytes) : Ledger.Change → List StatePatch
  | .keep => []
  | .entry e => [self.recordPatch b e.index e.record]
  | .source index a => [⟨BitVec.ofNat 32 (self.bindings + index * 64), 64, a.toBytes⟩]

/-- The events of a change. -/
def changeEvents [Target] : Ledger.Change → List EventIntent
  | .entry e => Ledger.entryEvents 0 e
  | _ => []

/-- The answer to a message with a change. -/
def changeAnswer [Target] (self : Layout) (b : Bytes) (mode : StateOutputMode)
    (c : Ledger.Change) : MessageOutput :=
  { MessageOutput.success (replacement b mode (self.changePatches b c)) with
    eventIntents := changeEvents c }

section

variable [Target] {self : Layout} {encode : Ledger → Bytes} {recordsAt : U8 → ℕ} {l l' : Ledger}
  {records : Records} {source : AccountAddress} {message : CanonicalMessage} {x : MessageInput}
  {c : Ledger.Change}

omit [Target] in
/-- A replacement has the same effect in both modes. -/
theorem appliedTo_replacement {b : Bytes} {mode : StateOutputMode} {patches : List StatePatch}
    (h : ∀ p ∈ patches, p.KeepsLength) : (replacement b mode patches).appliedTo b =
      patches.foldl (fun b p => patch b p.offset.toNat p.newBytes) b := by
  unfold replacement
  split_ifs
  · exact appliedTo_dataPatchList h b
  · rfl

omit [Target] in
/-- Writing a record keeps the length of the state. -/
theorem keepsLength_recordPatch (b : Bytes) (index : ℕ) (r : Record) :
    (self.recordPatch b index r).KeepsLength := by
  unfold recordPatch StatePatch.KeepsLength
  rw [Record.length_encode]
  rfl

namespace Lawful

variable (h : self.Lawful encode recordsAt)

include h

/-- A patch of a record is for the place of the record. -/
theorem offset_recordPatch (hl : l.Valid) {i : ℕ} (hi : i < l.count.toNat) (r : Record) :
    (self.recordPatch (encode l) i r).offset.toNat = recordsAt l.count + i * recordBytes := by
  unfold recordPatch
  dsimp only
  rw [h.records_eq hl, BitVec.toNat_ofNat, Nat.mod_eq_of_lt (h.records_lt hl hi)]

/-- A patch of a record changes the record. -/
theorem patch_recordPatch (hl : l.Valid) (hl' : l'.Valid) (hcount : l'.count = l.count) {i : ℕ}
    (hi : i < l.count.toNat) (r : Record) :
    patch (encode l') (self.recordPatch (encode l) i r).offset.toNat
      (self.recordPatch (encode l) i r).newBytes = encode (l'.withRecord i r) := by
  rw [h.offset_recordPatch hl hi, ← hcount]
  exact h.patch_record r hl' (by rw [hcount]; exact hi)

/-- The records of a state are those of its ledger. -/
theorem loadRecords_eq (hl : l.Valid) :
    self.loadRecords (encode l) l.count.toNat = .ok l.records := by
  refine tabulateM_ok_iff.mpr fun i => ?_
  split_ifs with hi
  · rw [h.record_eq hl hi, Ledger.slot_val]
  · rw [(hl.idle i hi).2]
    rfl

/-- **A report** is taken as the ledger takes it. -/
theorem accepted_eq (hl : l.Valid) (records : Records) :
    self.accepted (encode l) l.count.toNat source message records =
      (fun e : Entry => (e, Function.update records (slot e.index) e.record)) <$>
        ({ l with records := records } : Ledger).receive source message := by
  cases message with
  | external m => rfl
  | internal m =>
      unfold accepted Ledger.receive
      dsimp only
      rw [map_bind]
      congr 1
      funext _
      rw [map_bind]
      congr 1
      funext ⟨index, nonce, amount⟩
      dsimp only
      by_cases hindex : l.count.toNat ≤ index
      · have hboth : l.count.toNat ≤ index ∨ source ≠ l.sources (slot index) := .inl hindex
        simp only [failIf, if_pos hindex, if_pos hboth, error_bind]
        rfl
      · have hsource := h.source_eq hl (Nat.not_le.mp hindex)
        simp only [failIf, hsource, ok_bind, hindex, false_or, map_bind]
        rfl

/-- **A binding** is taken as the ledger takes it. -/
theorem bind_eq (hl : l.Valid) (hx : x.state = encode l) :
    self.bind x l.count.toNat =
      self.changeAnswer x.state x.requiredStateOutputMode <$> l.binding x := by
  unfold bind Ledger.binding
  rw [hx, h.owner_eq hl, ok_bind, map_bind]
  refine bind_congr_of_ok fun _ _ => ?_
  dsimp only
  rw [map_bind]
  refine bind_congr_of_ok fun _ hform => ?_
  rw [failIf_ok_iff] at hform
  push Not at hform
  obtain ⟨hlength, hindex, -⟩ := hform
  rw [map_bind]
  refine bind_congr_of_ok fun a ha => ?_
  have hsmall : x.message.body.length < 2 ^ 32 := by omega
  have hbody : x.message.body.drop 1 = a.toBytes := by
    rw [(addressAt_ok_iff hsmall hlength.ge).mp ha, List.extract_eq_take_drop]
    exact (List.take_of_length_le (by rw [List.length_drop]; omega)).symm
  have hfree (i : ℕ) (hi : i ∈ List.range l.count.toNat) :
      self.checkFree (encode l) a i = failIf (l.sources (slot i) = a) eAuditArgs := by
    unfold checkFree
    rw [h.source_eq hl (List.mem_range.mp hi), ok_bind]
  have hloop : (∃ i ∈ List.range l.count.toNat, l.sources (slot i) = a) ↔
      ∃ i, l.Active i ∧ l.sources i = a := by
    constructor
    · rintro ⟨i, hi, heq⟩
      exact ⟨slot i, hl.active_slot (List.mem_range.mp hi), heq⟩
    · rintro ⟨i, hi, heq⟩
      exact ⟨i.val, List.mem_range.mpr hi, by rw [Ledger.slot_val]; exact heq⟩
  have hmerge : failIf ((¬ nonzeroAddress a ∨ a.dappId ≠ x.destination.dappId ∨
      a = x.destination) ∨ l.sources (slot (x.message.body.getD 0 0).toNat) ≠ zeroAddress ∨
      ∃ i, l.Active i ∧ l.sources i = a) eAuditArgs =
        failIf (¬ nonzeroAddress a ∨ a.dappId ≠ x.destination.dappId ∨ a = x.destination)
          eAuditArgs >>= fun _ =>
        failIf (l.sources (slot (x.message.body.getD 0 0).toNat) ≠ zeroAddress) eAuditArgs >>=
          fun _ => failIf (∃ i, l.Active i ∧ l.sources i = a) eAuditArgs :=
    failIf_or.trans (bind_congr_of_ok fun _ _ => failIf_or)
  rw [h.source_eq hl hindex, ok_bind, forM_eq_failIf hfree, map_bind, failIf_congr hloop, hbody,
    hmerge, bind_assoc]
  refine bind_congr_of_ok fun _ _ => ?_
  rw [bind_assoc]
  rfl

/-- **A report** is answered as the ledger takes it. -/
theorem report_eq (hl : l.Valid) (hx : x.state = encode l) :
    self.report x l.count.toNat =
      self.changeAnswer x.state x.requiredStateOutputMode <$> l.reported x := by
  unfold report Ledger.reported
  cases x.caller with
  | external actor => rfl
  | internal source =>
      dsimp only
      rw [hx, h.loadRecords_eq hl, ok_bind, h.accepted_eq hl]
      cases l.receive source x.message with
      | error code => rfl
      | ok e =>
          obtain ⟨intent, hintent, hevents, -⟩ := entryEvents_eq 0 e
          have hchange : changeEvents (.entry e) = [intent] := hevents
          show _ = Except.ok (self.changeAnswer (encode l) x.requiredStateOutputMode (.entry e))
          unfold changeAnswer
          rw [hchange]
          show (auditEvent 0 e >>= _) = _
          rw [hintent]
          rfl

/-- The state of a valid ledger is accepted. -/
theorem validate_eq (hl : l.Valid) : self.validate (encode l) = .ok l.count.toNat :=
  h.validate_iff.mpr ⟨l, hl, rfl, rfl⟩

/-- **A message** is answered as the ledger handles it. -/
theorem isolated_eq (hl : l.Valid) (hx : x.state = encode l) :
    self.isolated x =
      self.changeAnswer x.state x.requiredStateOutputMode <$> l.handle x := by
  unfold isolated Ledger.handle
  rw [hx, h.validate_eq hl, ok_bind, ← hx]
  dsimp only
  split_ifs
  · unfold status Ledger.query
    cases x.caller with
    | internal source => rfl
    | external actor =>
        dsimp only
        rw [map_bind]
        refine bind_congr_of_ok fun _ _ => ?_
        rw [map_bind]
        rfl
  · exact h.bind_eq hl hx
  · exact h.report_eq hl hx

/-- **The state after a message** is that of the changed ledger, in both modes. -/
theorem appliedTo_changeAnswer (hl : l.Valid) (hc : l.handle x = .ok c) (mode : StateOutputMode) :
    (self.changeAnswer (encode l) mode c).appliedTo (encode l) = encode (l.changed c) := by
  show (replacement (encode l) mode (self.changePatches (encode l) c)).appliedTo (encode l) = _
  cases handled_of_handle hc with
  | query => exact appliedTo_replacement nofun
  | @bound a index method caller length_eq index_eq active address_eq address_ok free fresh =>
      have hmax : index < maxMembers := active.trans_le hl.count_le
      unfold changePatches
      rw [appliedTo_replacement (List.forall_mem_singleton.mpr ?_)]
      · show patch _ (BitVec.ofNat 32 (self.bindings + index * 64)).toNat a.toBytes = _
        rw [BitVec.toNat_ofNat, Nat.mod_eq_of_lt (h.bindings_lt hmax)]
        exact h.patch_source a hl active
      · unfold StatePatch.KeepsLength
        rw [AccountAddress.length_toBytes]
        rfl
  | @report source e method caller taken =>
      unfold changePatches
      rw [appliedTo_replacement (List.forall_mem_singleton.mpr (keepsLength_recordPatch ..))]
      exact h.patch_recordPatch hl hl rfl (active_of_receive taken) e.record

end Lawful

/-! ## Batches -/

/-- The iterator of a batch yields its messages. -/
theorem batchItems_eq {input : BatchInput} {messages : List CanonicalMessage}
    (hframed : input.Framed) (hms : input.Carries messages) :
    batchItems input = messages.map Except.ok := by
  apply drain_of_exhausts (hms.exhausts hframed)
  rw [List.length_map, hms.count_eq]
  exact Nat.lt_succ_self _

/-- **A stage of a batch** stands for the ledger after the messages so far. -/
structure Stages (l : Ledger) (o : Ledger.Outcome) (s : Stage) : Prop where
  valid : o.ledger.Valid
  ledger_eq : o.ledger = { l with records := s.records }
  statuses_eq : s.statuses = o.statuses
  events_eq : s.events = o.events
  active : ∀ i, s.touched i = true → l.Active i
  untouched : ∀ i, s.touched i = false → s.records i = l.records i

variable {o : Ledger.Outcome} {s : Stage} {input : BatchInput} {messages : List CanonicalMessage}

namespace Lawful

variable (h : self.Lawful encode recordsAt)

include h

/-- One message of a batch. -/
theorem take_eq (hs : Stages l o s) (hl : l.Valid) (hx : input.state = encode l)
    (hdestination : message.destination = input.destination) (k : ℕ) :
    ∃ t, self.take input l.count.toNat s (.ok message, k) = .ok t ∧
      Stages l (Ledger.round o (message, k)) t := by
  have hreceived : self.received input l.count.toNat s.records (.ok message) =
      (fun e : Entry => (e, Function.update s.records (slot e.index) e.record)) <$>
        o.ledger.receiveMessage message := by
    rw [hs.ledger_eq]
    cases message with
    | external m => rfl
    | internal m =>
        unfold received Ledger.receiveMessage
        dsimp only
        rw [if_pos (show m.destination = input.destination from hdestination), hx, h.accepted_eq hl]
  unfold take Ledger.round
  dsimp only
  rw [hreceived]
  cases hreceive : o.ledger.receiveMessage message with
  | error code =>
      exact ⟨_, rfl, hs.valid, hs.ledger_eq, congrArg (· ++ [code]) hs.statuses_eq, hs.events_eq,
        hs.active, hs.untouched⟩
  | ok e =>
      obtain ⟨m, -, hadmitted⟩ := Ledger.receiveMessage_ok_iff.mp hreceive
      obtain ⟨intent, hintent, hevents, -⟩ := entryEvents_eq (BitVec.ofNat 32 k) e
      have hactive : l.Active (slot e.index) := by
        have hindex := hadmitted.active
        rw [hs.ledger_eq] at hindex
        exact hl.active_slot hindex
      refine ⟨⟨Function.update s.records (slot e.index) e.record,
        Function.update s.touched (slot e.index) true, s.statuses ++ [0], s.events ++ [intent]⟩, ?_,
        hadmitted.valid hs.valid, ?_, congrArg (· ++ [0]) hs.statuses_eq, ?_, fun i hi => ?_,
        fun i hi => ?_⟩
      · show (auditEvent (BitVec.ofNat 32 k) e >>= _) = _
        rw [hintent]
        rfl
      · show o.ledger.withRecord e.index e.record = _
        rw [hs.ledger_eq]
        rfl
      · show s.events ++ [intent] = o.events ++ _
        rw [hs.events_eq, hevents]
      · by_cases hslot : i = slot e.index
        · rw [hslot]
          exact hactive
        · apply hs.active i
          rw [← hi]
          exact (Function.update_of_ne hslot _ _).symm
      · change Function.update s.touched (slot e.index) true i = false at hi
        have hslot : i ≠ slot e.index := by
          rintro rfl
          rw [Function.update_self] at hi
          cases hi
        rw [Function.update_of_ne hslot] at hi
        show Function.update s.records (slot e.index) e.record i = _
        rw [Function.update_of_ne hslot]
        exact hs.untouched i hi

/-- **The messages** of a batch, one after the other. -/
theorem foldlM_take_eq (hs : Stages l o s) (hl : l.Valid) (hx : input.state = encode l)
    (hdestination : ∀ m ∈ messages, m.destination = input.destination) (k : ℕ) :
    ∃ t, ((messages.map Except.ok).zipIdx k).foldlM (self.take input l.count.toNat) s = .ok t ∧
      Stages l ((messages.zipIdx k).foldl Ledger.round o) t := by
  induction messages generalizing o s k with
  | nil => exact ⟨s, rfl, hs⟩
  | cons m messages ih =>
      rw [List.forall_mem_cons] at hdestination
      obtain ⟨t, ht, hstages⟩ := h.take_eq hs hl hx hdestination.1 k
      obtain ⟨u, hu, hrest⟩ := ih hstages hdestination.2 (k + 1)
      refine ⟨u, ?_, hrest⟩
      rw [List.map_cons, List.zipIdx_cons, List.foldlM_cons, ht]
      exact hu

/-- **A batch** is answered with what the ledger makes of its messages. -/
theorem batch_eq {Refused : BatchInput → Prop} [DecidablePred Refused]
    {update : BatchInput → List StatePatch → StateUpdate} (hl : l.Valid)
    (hx : input.state = encode l) (hframed : input.Framed) (hms : input.Carries messages)
    (hrefused : ¬ Refused input) : ∃ s, Stages l (l.rounds messages) s ∧
      self.batch Refused update input =
        { stateUpdate := update input (self.patches (encode l) s)
          statusCodes := (l.rounds messages).statuses
          outboundIntents := []
          eventIntents := (l.rounds messages).events } := by
  have hstart : Stages l ⟨l, [], []⟩ ⟨l.records, fun _ => false, [], []⟩ :=
    ⟨hl, rfl, rfl, rfl, nofun, fun _ _ => rfl⟩
  obtain ⟨t, ht, hstages⟩ := h.foldlM_take_eq hstart hl hx
    (fun m hm => (hms.messages_ok m hm).destination_eq) 0
  have hrun : self.stages input l.count.toNat = .ok t := by
    unfold stages
    rw [hx, h.loadRecords_eq hl, batchItems_eq hframed hms]
    exact ht
  refine ⟨t, hstages, ?_⟩
  unfold batch
  rw [hx, h.validate_eq hl]
  dsimp only
  rw [if_neg hrefused, hrun]
  dsimp only
  rw [hstages.statuses_eq, hstages.events_eq]
  rfl

/-- Patches of records, one after the other. -/
theorem foldl_recordPatch (hl : l.Valid) (hl' : l'.Valid) (hcount : l'.count = l.count)
    (is : List (Fin maxMembers)) (hactive : ∀ i ∈ is, l.Active i)
    (hrecords : ∀ i ∈ is, ¬ (records i).Malformed) :
    (is.map fun i => self.recordPatch (encode l) i.val (records i)).foldl
        (fun b p => patch b p.offset.toNat p.newBytes) (encode l') =
      encode (is.foldl (fun k i => k.withRecord i.val (records i)) l') := by
  induction is generalizing l' with
  | nil => rfl
  | cons i is ih =>
      rw [List.forall_mem_cons] at hactive hrecords
      have hi : i.val < l'.count.toNat := by
        rw [hcount]
        exact hactive.1
      rw [List.map_cons, List.foldl_cons, List.foldl_cons,
        h.patch_recordPatch hl hl' hcount hactive.1]
      exact ih (hl'.withRecord hi hrecords.1) hcount hactive.2 hrecords.2

/-- **The state after a batch** is that of the ledger after its messages. -/
theorem appliedTo_patches (hl : l.Valid) (hs : Stages l o s) (mode : StateOutputMode) :
    (replacement (encode l) mode (self.patches (encode l) s)).appliedTo (encode l) =
      encode o.ledger := by
  have hkeeps : ∀ p ∈ self.patches (encode l) s, p.KeepsLength := by
    intro p hp
    obtain ⟨i, -, rfl⟩ := List.mem_map.mp hp
    exact keepsLength_recordPatch ..
  rw [appliedTo_replacement hkeeps]
  unfold patches
  rw [h.foldl_recordPatch hl hl rfl]
  · rw [foldl_withRecord, hs.ledger_eq]
    have hrecords : (fun i => if i ∈ (List.finRange maxMembers).filter (s.touched ·)
        then s.records i else l.records i) = s.records := by
      funext i
      split_ifs with hi
      · rfl
      · refine (hs.untouched i ?_).symm
        rw [List.mem_filter, not_and] at hi
        exact Bool.eq_false_iff.mpr (hi (List.mem_finRange i))
    rw [hrecords]
  · intro i hi
    exact hs.active i (List.mem_filter.mp hi).2
  · intro i _
    have hgood := hs.valid.record_ok i
    rw [hs.ledger_eq] at hgood
    exact hgood

end Lawful

end

end Layout

end AvmSdk.Audit
