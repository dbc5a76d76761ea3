import AvmSdk.Contracts.Audit.Batch
import AvmSdk.Contracts.Escrow.Gate
import AvmSdk.Contracts.Hub.Gate
import AvmSdk.Contracts.Vesting.Gate

/-!
# The audit ledgers at the gate

The two audit ledgers answer nothing that the gates of the guest crate refuse, whatever the state, the
mode and the number of messages; and an answer in which no message succeeds changes nothing.

* `PassesLedger`: what the ledgers pass.
* `Ledger.Told`, `Ledger.told_rounds`: what the messages of a batch leave behind, in any number.
* `Layout.Careful.passesLedger`: a ledger over a layout with short states passes.
* `outputs_accepted`: all contracts pass.
-/

namespace AvmSdk.Audit

open Wire Sdk Contracts Hub

/-- **What passes.** On every frame, whatever its state and its mode, the gate accepts what the
contract answers; if no message has succeeded, the answer leaves the state. -/
structure PassesLedger [Target] (contract : BatchContract) : Prop where
  init_ok : ∀ (b : Slice) (x : MessageInput), decodeMessageInput b.bytes = .ok x →
    x.message.isDeploy → (∃ n, messageOutputLenFor x true (contract.init x) = .ok n) ∧
      ((contract.init x).statusCode ≠ 0 → (contract.init x).appliedTo x.state = x.state)
  process_ok : ∀ (b : Slice) (x : MessageInput), decodeMessageInput b.bytes = .ok x →
    ¬ x.message.isDeploy → (∃ n, messageOutputLenFor x false (contract.processMessage x) = .ok n) ∧
      ((contract.processMessage x).statusCode ≠ 0 →
        (contract.processMessage x).appliedTo x.state = x.state)
  batch_ok : ∀ (b : Slice) (input : BatchInput), decodeBatchInput b.bytes = .ok input →
    (∃ n, batchOutputLenFor input (contract.processBatch input) = .ok n) ∧
      ((∀ statusCode ∈ (contract.processBatch input).statusCodes, statusCode ≠ 0) →
        (contract.processBatch input).appliedTo input.state = input.state)

/-! ## Error codes -/

section

variable [Target] {l : Ledger} {x : MessageInput} {b : Bytes}

/-- Reading a record raises the error codes of the ledger. -/
theorem raises_decode : Raises (Record.decode b) ErrorCode := by
  unfold Record.decode
  refine (raises_failIf fun _ => errorCode rfl).bind fun _ _ => ?_
  refine (raises_wordAt (errorCode rfl)).bind fun _ _ => ?_
  exact (raises_wordAt (errorCode rfl)).bind fun _ _ =>
    (raises_wordAt (errorCode rfl)).bind fun _ _ => raises_pure _

/-- The errors of a deployment. -/
theorem raises_initializeLedger (fresh : Bytes32 → U8 → Bytes) :
    Raises (Layout.initializeLedger fresh x) ErrorCode := by
  unfold Layout.initializeLedger
  split
  next => exact raises_error (errorCode rfl)
  next =>
    refine (raises_mapError fun _ => errorCode rfl).bind fun _ _ => ?_
    exact (raises_failIf fun _ => errorCode rfl).bind fun _ _ => raises_pure _

/-! ## Events -/

omit [Target] in
/-- The events of a report are short. -/
theorem brief_of_entryEvents {k : U32} {e : Entry} : (Ledger.entryEvents k e).length = 1 ∧
    ∀ intent ∈ Ledger.entryEvents k e, BriefEvent intent ∧ intent.inputIndex = k := by
  obtain ⟨intent, hintent, hevents, -⟩ := entryEvents_eq k e
  rw [hevents]
  refine ⟨rfl, List.forall_mem_singleton.mpr ?_⟩
  unfold auditEvent at hintent
  exact brief_of_event hintent (by simp)

namespace Ledger

/-- **What the first messages** of a batch leave behind: a status for each of them, and events of
those that succeeded. -/
structure Told (l : Ledger) (n : ℕ) (o : Outcome) : Prop where
  statuses_length : o.statuses.length = n
  statuses_ok : ∀ statusCode ∈ o.statuses, statusCode = 0 ∨ ErrorCode statusCode
  events_length : o.events.length ≤ n
  events_ok : ∀ e ∈ o.events, BriefEvent e ∧ o.statuses[e.inputIndex.toNat]? = some 0
  kept : (∀ statusCode ∈ o.statuses, statusCode ≠ 0) → o.ledger = l

variable {o : Outcome} {n : ℕ}

/-- One more message. -/
theorem Told.round (h : Told l n o) (message : CanonicalMessage) (hn : n < 2 ^ 32) :
    Told l (n + 1) (round o (message, n)) := by
  have hindex (statusCode : U32) (e : EventIntent) (he : e ∈ o.events) :
      BriefEvent e ∧ (o.statuses ++ [statusCode])[e.inputIndex.toNat]? = some 0 := by
    obtain ⟨hbrief, hstatus⟩ := h.events_ok e he
    obtain ⟨hlt, -⟩ := List.getElem?_eq_some_iff.mp hstatus
    exact ⟨hbrief, (List.getElem?_append_left hlt).trans hstatus⟩
  have hlength (statusCode : U32) : (o.statuses ++ [statusCode]).length = n + 1 := by
    rw [List.length_append, h.statuses_length, List.length_singleton]
  unfold Ledger.round
  dsimp only
  split
  next e he =>
    obtain ⟨hone, hbrief⟩ := brief_of_entryEvents (k := BitVec.ofNat 32 n) (e := e)
    refine ⟨hlength 0, ?_, ?_, ?_, fun hno => ?_⟩
    · rw [List.forall_mem_append, List.forall_mem_singleton]
      exact ⟨h.statuses_ok, .inl rfl⟩
    · rw [List.length_append, hone]
      exact Nat.succ_le_succ h.events_length
    · rw [List.forall_mem_append]
      refine ⟨hindex 0, fun intent hintent => ⟨(hbrief intent hintent).1, ?_⟩⟩
      rw [(hbrief intent hintent).2, BitVec.toNat_ofNat, Nat.mod_eq_of_lt hn, ← h.statuses_length]
      exact List.getElem?_concat_length
    · exact absurd rfl (hno 0 (List.mem_append_right _ (List.mem_singleton_self 0)))
  next statusCode he =>
    refine ⟨hlength statusCode, ?_, h.events_length.trans (Nat.le_succ n), hindex statusCode, ?_⟩
    · rw [List.forall_mem_append, List.forall_mem_singleton]
      exact ⟨h.statuses_ok, .inr (raises_receiveMessage message statusCode he)⟩
    · intro hno
      exact h.kept fun s hs => hno s (List.mem_append_left _ hs)

/-- **The messages of a batch**, one after the other. -/
theorem told_rounds (messages : List CanonicalMessage) (h : Told l n o)
    (hn : n + messages.length ≤ 2 ^ 32) :
    Told l (n + messages.length) ((messages.zipIdx n).foldl Ledger.round o) := by
  induction messages generalizing n o with
  | nil => exact h
  | cons m messages ih =>
      rw [List.length_cons, ← Nat.add_assoc, Nat.add_right_comm] at hn ⊢
      rw [List.zipIdx_cons, List.foldl_cons]
      exact ih (h.round m (by omega)) hn

end Ledger

/-! ## Updates -/

variable {k : Layout} {f : Format} {c : Ledger.Change} {out : MessageOutput}

omit [Target] in
/-- An update with few patches is short in both modes. -/
theorem briefUpdate_replacement {mode : StateOutputMode} {patches : List StatePatch}
    (hshaped : ShapedPatches patches) (hfew : patches.length ≤ maxMembers)
    (hnew : ∀ p ∈ patches, p.newBytes.length ≤ 64)
    (hlength : (patches.foldl (fun b p => patch b p.offset.toNat p.newBytes) b).length + 8 ≤ 2 ^ 17) :
    BriefUpdate mode (replacement b mode patches) := by
  unfold replacement
  cases mode with
  | fullReplace => exact briefUpdate_fullReplace hlength
  | dataPatchList =>
      have hpatches : (patches.map fun p => p.toBytes.length).sum ≤ 16 * 76 := by
        apply sum_map_le hfew
        intro p hp
        rw [StatePatch.length_toBytes]
        exact Nat.add_le_add_left (hnew p hp) 12
      refine ⟨rfl, hshaped, ?_⟩
      rw [if_pos rfl, StateUpdate.length_toBytes]
      simp only [StateUpdate.payload, List.length_append, length_leBytes, length_toLe,
        List.length_flatMap]
      omega

/-- A layout with short states, which ends with error codes. -/
structure Layout.Careful (k : Layout) (f : Format) : Prop where
  reads : k.Reads f
  size_le : ∀ {count : U8}, count.toNat ≤ maxMembers → f.size count + 8 ≤ 2 ^ 17
  raises_header : ∀ b, Raises (k.header b) ErrorCode
  raises_record : ∀ b i, Raises (k.record b i) ErrorCode

namespace Layout.Careful

variable (h : k.Careful f)

include h

/-- Validating a state raises the error codes of the ledger. -/
theorem raises_validate : Raises (k.validate b) ErrorCode := by
  unfold validate
  refine (h.raises_header b).bind fun n _ => Raises.bind ?_ fun _ _ => raises_pure _
  apply raises_foldlM
  intro seen i
  unfold checkMember
  refine (raises_addressAt (errorCode rfl)).bind fun a _ => Raises.bind ?_ fun _ _ => ?_
  · unfold pushSource
    refine Raises.ite (fun _ => raises_ok _) fun _ => ?_
    exact (raises_failIf fun _ => errorCode rfl).bind fun _ _ => raises_pure _
  · refine (h.raises_record b i).bind fun _ _ => ?_
    exact (raises_failIf fun _ => errorCode rfl).bind fun _ _ => raises_pure _

/-- The states are short. -/
theorem length_encode_le (hl : l.Valid) : (f.encode l).length + 8 ≤ 2 ^ 17 := by
  have hholds := (Format.encode_eq_iff (f := f) (l := l) h.reads.length_head).mp rfl
  rw [hholds.frames.length_eq]
  exact h.size_le hl.count_le

/-- The patches of records are in order. -/
theorem shapedPatches_records (hl : l.Valid) (records : Records) {is : List (Fin maxMembers)}
    (hsorted : is.Pairwise (· < ·)) (hactive : ∀ i ∈ is, l.Active i) :
    ShapedPatches (is.map fun i => k.recordPatch (f.encode l) i.val (records i)) := by
  have hlength := h.length_encode_le hl
  have hholds := (Format.encode_eq_iff (f := f) (l := l) h.reads.length_head).mp rfl
  have hrow : recordBytes = 32 := rfl
  have hoffset (i : Fin maxMembers) (hi : l.Active i) :=
    h.reads.lawful.offset_recordPatch hl hi (records i)
  have hstop (i : Fin maxMembers) (hi : l.Active i) :
      (k.recordPatch (f.encode l) i.val (records i)).stop =
        f.recordsAt l.count + i.val * recordBytes + recordBytes := by
    unfold StatePatch.stop
    rw [hoffset i hi]
    rfl
  refine ⟨?_, List.forall_mem_map.mpr fun i hi => ?_, List.forall_mem_map.mpr fun i hi => ?_, ?_⟩
  · have hcard := List.Nodup.length_le_card (hsorted.imp ne_of_lt)
    rw [Fintype.card_fin] at hcard
    rw [List.length_map]
    exact hcard.trans_lt (by decide)
  · have hfits := hholds.frames.record_fits (hactive i hi)
    rw [hstop i (hactive i hi)]
    exact hfits.trans_lt (by omega)
  · show (records i).encode.length < 2 ^ 32
    rw [Record.length_encode]
    decide
  · rw [List.pairwise_map]
    refine hsorted.imp_of_mem fun {i j} hi hj hlt => ?_
    rw [hstop i (hactive i hi), hoffset j (hactive j hj)]
    have hij : i.val < j.val := hlt
    rw [hrow]
    omega

/-- The update of an accepted message. -/
theorem briefUpdate_change (hl : l.Valid) (hc : l.handle x = .ok c) (mode : StateOutputMode) :
    BriefUpdate mode (replacement (f.encode l) mode (k.changePatches (f.encode l) c)) := by
  have hvalid := hl.changed hc
  have hnext := h.reads.lawful.appliedTo_changeAnswer hl hc .fullReplace
  change (k.changePatches (f.encode l) c).foldl (fun b p => patch b p.offset.toNat p.newBytes)
    (f.encode l) = _ at hnext
  have hlength := h.length_encode_le hvalid
  rw [← hnext] at hlength
  cases Ledger.handled_of_handle hc with
  | query =>
      exact briefUpdate_replacement ⟨Nat.two_pow_pos 16, nofun, nofun, List.Pairwise.nil⟩
        (Nat.zero_le _) nofun hlength
  | @bound a index method caller length_eq index_eq active address_eq address_ok free fresh =>
      have hholds := (Format.encode_eq_iff (f := f) (l := l) h.reads.length_head).mp rfl
      have hfits := hholds.frames.source_fits active
      have hlengths := h.length_encode_le hl
      have hoffset := h.reads.lawful.bindings_lt (active.trans_le hl.count_le)
      rw [← h.reads.bindings_eq] at hfits
      have haddress := a.length_toBytes
      have hone : 1 ≤ maxMembers := by decide
      have hsmall : 1 < 2 ^ 16 := by decide
      have hshaped : ShapedPatches (k.changePatches (f.encode l) (.source index a)) := by
        refine ⟨hsmall, List.forall_mem_singleton.mpr ?_, List.forall_mem_singleton.mpr ?_,
          List.pairwise_singleton _ _⟩
        · show (BitVec.ofNat 32 (k.bindings + index * 64)).toNat + 64 < 2 ^ 32
          rw [BitVec.toNat_ofNat, Nat.mod_eq_of_lt hoffset]
          omega
        · show a.toBytes.length < 2 ^ 32
          omega
      exact briefUpdate_replacement hshaped hone (List.forall_mem_singleton.mpr haddress.le) hlength
  | @report source e method caller taken =>
      have hactive := Ledger.active_of_receive taken
      have hslot := Ledger.val_slot (hactive.trans_le hl.count_le)
      have hpatches := h.shapedPatches_records hl (fun _ => e.record)
        (List.pairwise_singleton _ (slot e.index))
        (List.forall_mem_singleton.mpr (hl.active_slot hactive))
      rw [List.map_singleton, hslot] at hpatches
      have hone : 1 ≤ maxMembers := by decide
      apply briefUpdate_replacement hpatches hone _ hlength
      exact List.forall_mem_singleton.mpr (by simp [recordPatch, recordBytes])

/-! ## One message -/

/-- A report that succeeds is a change of a valid ledger. -/
theorem isolated_ok (hout : k.isolated x = .ok out) : ∃ l c, l.Valid ∧ f.encode l = x.state ∧
    l.handle x = .ok c ∧ out = k.changeAnswer x.state x.requiredStateOutputMode c := by
  have hvalidate := hout
  simp only [isolated, bind_ok_iff] at hvalidate
  obtain ⟨n, hn, -⟩ := hvalidate
  obtain ⟨l, hl, hstate, -⟩ := h.reads.validate_iff.mp hn
  rw [h.reads.lawful.isolated_eq hl hstate.symm, map_ok_iff] at hout
  obtain ⟨c, hc, rfl⟩ := hout
  exact ⟨l, c, hl, hstate, hc, rfl⟩

/-- A report on its own raises the error codes of the ledger. -/
theorem raises_isolated : Raises (k.isolated x) ErrorCode := by
  cases hvalidate : k.validate x.state with
  | error e =>
      unfold isolated
      rw [hvalidate]
      exact raises_error (h.raises_validate e hvalidate)
  | ok n =>
      obtain ⟨l, hl, hstate, -⟩ := h.reads.validate_iff.mp hvalidate
      rw [h.reads.lawful.isolated_eq hl hstate.symm]
      exact Ledger.raises_handle.map _

omit h in
/-- No accepted message calls the reserved upgrade method. -/
theorem methodId_ne_of_handle (hc : l.handle x = .ok c) :
    x.message.methodId ≠ codeUpgradeMethodId := by
  cases Ledger.handled_of_handle hc with
  | query method =>
      rw [method]
      decide
  | bound method =>
      rw [method]
      decide
  | report method caller taken =>
      cases hm : x.message with
      | external m =>
          rw [hm] at taken
          cases taken
      | internal m =>
          rw [hm, Ledger.receive_ok_iff] at taken
          have hreport := taken.report
          unfold NoReport at hreport
          push Not at hreport
          show m.methodId ≠ codeUpgradeMethodId
          rw [hreport.1]
          decide

/-- **The answers to accepted messages.** -/
theorem acceptable_isolated (hdeploy : ¬ x.message.isDeploy) :
    Ensures (k.isolated x) (Acceptable x false) := by
  intro out hout
  obtain ⟨l, c, hl, hstate, hc, rfl⟩ := h.isolated_ok hout
  have hevents : (changeEvents c).length ≤ 1 ∧
      ∀ e ∈ changeEvents c, BriefEvent e ∧ e.inputIndex = 0 := by
    cases c with
    | entry e =>
        obtain ⟨hone, hbrief⟩ := brief_of_entryEvents (k := 0) (e := e)
        exact ⟨hone.le, hbrief⟩
    | keep => exact ⟨Nat.zero_le 1, nofun⟩
    | source => exact ⟨Nat.zero_le 1, nofun⟩
  refine ⟨⟨hdeploy, .inr rfl, fun _ hno => absurd hno (methodId_ne_of_handle hc), fun _ => rfl⟩, rfl,
    ⟨_, rfl, ?_⟩, Nat.zero_le _, Nat.zero_le _, nofun, Nat.zero_le _,
    ⟨nofun, nofun, List.nodup_nil⟩, hevents.1, hevents.2⟩
  rw [← hstate]
  exact h.briefUpdate_change hl hc _

/-- **A message** is answered at the gate. -/
theorem passes_isolated (hdeploy : ¬ x.message.isDeploy) :
    (∃ n, messageOutputLenFor x false (orFailure (k.isolated x)) = .ok n) ∧
      ((orFailure (k.isolated x)).statusCode ≠ 0 →
        (orFailure (k.isolated x)).appliedTo x.state = x.state) := by
  refine ⟨exists_outputLen_orFailure (iff_of_false hdeploy Bool.false_ne_true) h.raises_isolated
    (h.acceptable_isolated hdeploy), fun hstatus => ?_⟩
  cases hout : k.isolated x with
  | error e => rfl
  | ok out =>
      rw [hout] at hstatus
      exact absurd (h.acceptable_isolated hdeploy out hout).status_eq hstatus

/-! ## Deployments -/

/-- **A deployment** is answered at the gate. -/
theorem passes_initializeLedger {fresh : Bytes32 → U8 → Bytes}
    (hfresh : ∀ owner {count : U8}, count.toNat ≤ maxMembers →
      fresh owner count = f.encode (Ledger.new owner count)) (hdeploy : x.message.isDeploy) :
    (∃ n, messageOutputLenFor x true (orFailure (initializeLedger fresh x)) = .ok n) ∧
      ((orFailure (initializeLedger fresh x)).statusCode ≠ 0 →
        (orFailure (initializeLedger fresh x)).appliedTo x.state = x.state) := by
  have hok : Ensures (initializeLedger fresh x) (Acceptable x true) := by
    unfold initializeLedger
    split
    next => exact ensures_error _
    next owner hcaller =>
      refine ensures_bind fun deploy _ => ensures_bind fun _ hguard => ensures_pure ?_
      have hguard := failIf_ok_iff.mp hguard
      simp only [not_or, not_not] at hguard
      obtain ⟨hmode, -, -, hcount, -, -⟩ := hguard
      have hcount := Legacy.not_sixteen_lt_iff.mp hcount
      have hholds := (Format.encode_eq_iff (l := Ledger.new owner (deploy.initData.getD 0 0))
        h.reads.length_head).mp rfl
      refine ⟨⟨hdeploy, rfl, rfl, rfl⟩, rfl, ⟨_, rfl, ?_⟩, Nat.zero_le _, Nat.zero_le _, nofun,
        Nat.zero_le _, ⟨nofun, nofun, List.nodup_nil⟩, Nat.zero_le _, nofun⟩
      rw [hmode]
      apply briefUpdate_fullReplace
      rw [hfresh owner hcount, hholds.frames.length_eq]
      exact h.size_le hcount
  refine ⟨exists_outputLen_orFailure (iff_of_true hdeploy rfl) (raises_initializeLedger fresh) hok,
    fun hstatus => ?_⟩
  cases hout : initializeLedger fresh x with
  | error e => rfl
  | ok out =>
      rw [hout] at hstatus
      exact absurd (hok out hout).status_eq hstatus

end Layout.Careful

/-! ## Batches -/

variable {input : BatchInput} {messages : List CanonicalMessage}

/-- **A refused batch** is answered at the gate, whatever its state and its length: the answer is
shorter than the frame. -/
theorem passes_failure {frame : Slice} (hx : decodeBatchInput frame.bytes = .ok input) {code : U32}
    (hcode : ErrorCode code) :
    (∃ n, batchOutputLenFor input (Layout.failure input code) = .ok n) ∧
      (Layout.failure input code).appliedTo input.state = input.state := by
  obtain ⟨hbytes, hframed, -⟩ := (decodeBatchInput_ok_iff frame input).mp hx
  have hanswers : (Layout.failure input code).Answers input :=
    ⟨List.length_replicate.symm, List.forall_mem_nil _, List.forall_mem_nil _⟩
  have hlength : (Layout.failure input code).toBytes.length ≤ usizeMax := by
    have hframe := frame.length_le
    rw [← hbytes] at hframe
    have hoffsets := hframed.offsets_length
    rw [BatchOutput.length_toBytes]
    simp only [BatchInput.toBytes, List.length_append, List.length_cons, length_lengthPrefixed,
      AccountAddress.length_toBytes, acbiMagic] at hframe
    simp only [Layout.failure, List.length_replicate, counted, List.length_append, length_leBytes,
      List.flatMap_nil, List.length_nil, StateUpdate.length_toBytes, replacement]
    split_ifs
    · simp only [StateUpdate.payload, List.length_append, length_leBytes, length_toLe,
        List.flatMap_nil, List.length_nil]
      omega
    · simp only [StateUpdate.payload, List.foldl_nil, length_lengthPrefixed]
      omega
  refine ⟨⟨_, batchOutputLenFor_ok_iff.mpr ⟨hanswers, ⟨?_, ?_, ?_, Nat.two_pow_pos 32,
    List.forall_mem_nil _, Nat.two_pow_pos 32, List.forall_mem_nil _⟩, rfl, hlength⟩⟩,
    Layout.appliedTo_replacement (List.forall_mem_nil _)⟩
  · rintro mode ⟨⟩
    unfold Layout.failure replacement
    cases input.requiredStateOutputMode <;> rfl
  · unfold Layout.failure replacement
    cases input.requiredStateOutputMode with
    | fullReplace => trivial
    | dataPatchList =>
      exact ⟨Nat.two_pow_pos 16, List.forall_mem_nil _, List.forall_mem_nil _, List.Pairwise.nil⟩
  · intro s hs
    rw [List.eq_of_mem_replicate hs]
    exact .inr hcode

/-- **An accepted batch** is answered at the gate: it is short. -/
theorem passes_told {o : Ledger.Outcome} {update : StateUpdate}
    (htold : Ledger.Told l input.messageCount.toNat o)
    (hcount : input.messageCount.toNat ≤ maxBatch)
    (hupdate : BriefUpdate input.requiredStateOutputMode update) :
    ∃ n, batchOutputLenFor input
      { stateUpdate := update
        statusCodes := o.statuses
        outboundIntents := []
        eventIntents := o.events } = .ok n := by
  have hmax : maxBatch = 256 := rfl
  have hevents := htold.events_length.trans hcount
  refine ⟨_, batchOutputLenFor_ok_iff.mpr ⟨⟨htold.statuses_length.symm, nofun, fun e he => ?_⟩,
    ⟨?_, hupdate.shaped, htold.statuses_ok, Nat.two_pow_pos 32, nofun, ?_, fun e he => ?_⟩, rfl, ?_⟩⟩
  · exact (htold.events_ok e he).2
  · rintro mode ⟨⟩
    exact hupdate.mode_eq.symm
  · exact hevents.trans_lt (by decide)
  · exact (htold.events_ok e he).1.shaped
  · have hevents := length_counted_le hevents fun e he => (htold.events_ok e he).1.length_le
    have hlength := hupdate.length_le
    apply le_usizeMax
    rw [BatchOutput.length_toBytes]
    dsimp only
    rw [htold.statuses_length]
    simp only [counted, List.length_append, length_leBytes, List.flatMap_nil,
      List.length_nil] at hevents ⊢
    omega

namespace Layout.Careful

variable (h : k.Careful f)

include h

/-- The update of a batch. -/
theorem briefUpdate_patches {o : Ledger.Outcome} {s : Stage} (hl : l.Valid) (hs : Stages l o s)
    (mode : StateOutputMode) :
    BriefUpdate mode (replacement (f.encode l) mode (k.patches (f.encode l) s)) := by
  have hsorted := (List.pairwise_lt_finRange maxMembers).filter (s.touched ·)
  have hactive : ∀ i ∈ (List.finRange maxMembers).filter (s.touched ·), l.Active i :=
    fun i hi => hs.active i (List.mem_filter.mp hi).2
  have hnext := h.reads.lawful.appliedTo_patches hl hs .fullReplace
  change (k.patches (f.encode l) s).foldl (fun b p => patch b p.offset.toNat p.newBytes)
    (f.encode l) = _ at hnext
  have hlength := h.length_encode_le hs.valid
  rw [← hnext] at hlength
  apply briefUpdate_replacement (h.shapedPatches_records hl s.records hsorted hactive) _ _ hlength
  · rw [List.length_map]
    exact (List.length_filter_le _ _).trans (List.length_finRange).le
  · refine List.forall_mem_map.mpr fun i _ => ?_
    show (s.records i).encode.length ≤ 64
    rw [Record.length_encode]
    decide

/-- **A batch** is answered at the gate, and what does not succeed leaves the state. -/
theorem passes_batch {Refused : BatchInput → Prop} [DecidablePred Refused]
    {update : BatchInput → List StatePatch → StateUpdate}
    (hcount : ∀ input, ¬ Refused input → input.messageCount.toNat ≤ maxBatch)
    (hupdate : ∀ input patches, ¬ Refused input →
      update input patches = replacement input.state input.requiredStateOutputMode patches)
    {frame : Slice} (hx : decodeBatchInput frame.bytes = .ok input) :
    (∃ n, batchOutputLenFor input (k.batch Refused update input) = .ok n) ∧
      ((∀ statusCode ∈ (k.batch Refused update input).statusCodes, statusCode ≠ 0) →
        (k.batch Refused update input).appliedTo input.state = input.state) := by
  obtain ⟨-, hframed, messages, hmessages⟩ := (decodeBatchInput_ok_iff frame input).mp hx
  have hfailure := passes_failure hx (errorCode (e := eAuditArgs) rfl)
  cases hvalidate : k.validate input.state with
  | error e =>
      have hbatch : k.batch Refused update input = failure input eAuditArgs := by
        unfold batch
        rw [hvalidate]
      rw [hbatch]
      exact ⟨hfailure.1, fun _ => hfailure.2⟩
  | ok n =>
      by_cases hrefused : Refused input
      · have hbatch : k.batch Refused update input = failure input eAuditArgs := by
          unfold batch
          rw [hvalidate]
          exact if_pos hrefused
        rw [hbatch]
        exact ⟨hfailure.1, fun _ => hfailure.2⟩
      · obtain ⟨l, hl, hstate, -⟩ := h.reads.validate_iff.mp hvalidate
        obtain ⟨s, hs, hbatch⟩ := h.reads.lawful.batch_eq hl hstate.symm hframed hmessages hrefused
        have hlength := hcount input hrefused
        have hsmall : 0 + messages.length ≤ 2 ^ 32 := by
          rw [Nat.zero_add, ← hmessages.count_eq]
          exact hlength.trans (by decide)
        have hstart : Ledger.Told l 0 ⟨l, [], []⟩ := ⟨rfl, nofun, le_rfl, nofun, fun _ => rfl⟩
        have htold := Ledger.told_rounds messages hstart hsmall
        rw [Nat.zero_add, ← hmessages.count_eq] at htold
        rw [hbatch, hupdate input _ hrefused, ← hstate]
        refine ⟨passes_told htold hlength (h.briefUpdate_patches hl hs _), fun hno => ?_⟩
        show (replacement _ _ _).appliedTo _ = _
        rw [h.reads.lawful.appliedTo_patches hl hs]
        exact congrArg f.encode (htold.kept hno)

end Layout.Careful

end

/-! ## The two ledgers -/

section

variable [Target]

/-- The layout of the audit ledger is careful, -/
theorem Legacy.careful : Legacy.layout.Careful Legacy.format where
  reads := Legacy.reads
  size_le h := by
    rw [Legacy.size_eq h]
    decide
  raises_header b := by
    show Raises (Legacy.header b) ErrorCode
    unfold Legacy.header
    refine (raises_failIf fun _ => errorCode rfl).bind fun _ _ => ?_
    exact (raises_failIf fun _ => errorCode rfl).bind fun _ _ => raises_pure _
  raises_record b i := by
    show Raises (Legacy.record b i) ErrorCode
    unfold Legacy.record
    refine (raises_failIf fun _ => errorCode rfl).bind fun _ _ => ?_
    exact (raises_okOr fun _ => errorCode rfl).bind fun _ _ => raises_decode

/-- and so is that of the compact one. -/
theorem Compact.careful : Compact.layout.Careful Compact.format where
  reads := Compact.reads
  size_le {count} h := by
    have hmax : maxMembers = 16 := rfl
    rw [Compact.size_eq]
    unfold Compact.stateBytes Compact.headerBytes
    omega
  raises_header b := by
    show Raises (Compact.header b) ErrorCode
    unfold Compact.header
    refine (raises_failIf fun _ => errorCode rfl).bind fun _ _ => ?_
    refine (raises_wordAt (errorCode rfl)).bind fun _ _ => ?_
    exact (raises_failIf fun _ => errorCode rfl).bind fun _ _ => raises_pure _
  raises_record b i := by
    show Raises (Compact.record b i) ErrorCode
    unfold Compact.record
    refine (raises_failIf fun _ => errorCode rfl).bind fun _ _ => ?_
    exact (raises_okOr fun _ => errorCode rfl).bind fun _ _ => raises_decode

/-- **The audit ledger** passes the gates. -/
theorem passesLedger_legacy : PassesLedger Legacy.auditLedger where
  init_ok _ _ _ hdeploy :=
    Legacy.careful.passes_initializeLedger (fun _ _ h => Legacy.fresh_eq h) hdeploy
  process_ok _ _ _ hdeploy := Legacy.careful.passes_isolated hdeploy
  batch_ok _ _ hx := by
    refine Legacy.careful.passes_batch (fun _ h => ?_) (fun _ _ h => ?_) hx
    · unfold Legacy.Refused at h
      push Not at h
      exact h.2
    · unfold Legacy.Refused at h
      push Not at h
      unfold replacement
      rw [if_pos h.1]

/-- **The compact audit ledger** passes the gates. -/
theorem passesLedger_compact : PassesLedger Compact.auditLedger where
  init_ok _ _ _ hdeploy :=
    Compact.careful.passes_initializeLedger (fun owner {count} _ => Compact.fresh_eq owner count)
      hdeploy
  process_ok _ _ _ hdeploy := Compact.careful.passes_isolated hdeploy
  batch_ok _ _ hx :=
    Compact.careful.passes_batch (fun _ h => Nat.not_lt.mp h) (fun _ _ _ => rfl) hx

/-- **No contract loses its output at the gate.** Whatever the audit ledgers answer to a frame passes,
for any state bytes, any mode and any number of messages, and it leaves the state if no message has
succeeded. Whatever the vault, the vesting contract, the escrow and their receivers answer to a frame
with a state that they have reached passes. -/
theorem outputs_accepted :
    PassesLedger Legacy.auditLedger ∧ PassesLedger Compact.auditLedger ∧
      Passes revenueVault ∧ Passes payoutReceiver ∧ Passes Vesting.vesting ∧
      Passes Vesting.receiver ∧ Passes Escrow.escrow ∧ Passes Escrow.receiver :=
  ⟨passesLedger_legacy, passesLedger_compact, passes_revenueVault, passes_payoutReceiver,
    Vesting.passes_vesting, Vesting.passes_receiver, Escrow.passes_escrow, Escrow.passes_receiver⟩

end

/-- A batch of the audit ledger, and a payment of a vault. -/
theorem outputs_accepted_sample :
    letI := Target.wasm32
    (∃ n, batchOutputLenFor sampleMixedBatch (Legacy.auditLedger.processBatch sampleMixedBatch) =
      .ok n) ∧
    (revenueVault.processMessage sampleClaim).statusCode = 0 ∧
      ∃ n, messageOutputLenFor sampleClaim false (revenueVault.processMessage sampleClaim) = .ok n := by
  let _ := Target.wasm32
  obtain ⟨hledger, -, hvault, -⟩ := outputs_accepted
  obtain ⟨frame, hframe⟩ := batched_sampleMixedBatch.decodes
  have hlength : sampleClaim.serialize.length ≤ usizeMax := by decide +kernel
  have hclaim : decodeMessageInput (Slice.mk _ hlength).bytes = .ok sampleClaim :=
    (decodeMessageInput_ok_iff ⟨_, hlength⟩ _).mpr ⟨rfl, sampleClaim_wellFormed⟩
  have hstate : sampleClaim.state = sampleFunded.encode := state_signedInput _ _ _ _
  have haccepted : Call.Accepted ⟨sampleClaim, revenueVault.processMessage sampleClaim⟩ :=
    accepted_of_step sampleFunded_stored hstate step_sampleClaim
  exact ⟨(hledger.batch_ok frame _ hframe).1, haccepted,
    hvault.process_ok _ _ _ sampleFundedRun _ _ hclaim hstate rfl (by decide)⟩

end AvmSdk.Audit
