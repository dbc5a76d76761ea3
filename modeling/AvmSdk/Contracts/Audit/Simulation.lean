import AvmSdk.Alloc.Machine
import AvmSdk.Contracts.Audit.Compact
import AvmSdk.Contracts.Hub.Deployment

/-!
# The compact ledger behaves as the audit ledger

The two audit ledgers as machines that answer frames: a frame is served on the state that the ledger
has, in a mode of its own. Both do what the frame does to the ledger that they store, and so they are
compared through the conversion of the states.

* `Frame.answered`: what a frame does to a ledger, as the host sees it.
* `Keeps`: a contract that stores a ledger. `Legacy.keeps`, `Compact.keeps`.
* `Compact.Related`, `Compact.simulates_legacy`: the simulation, frame by frame.
* `Compact.indistinguishable`: this, for deployments, and over all runs behind a migration.
-/

namespace AvmSdk.Audit

open Wire Sdk Contracts Hub

/-- What the host sees of an answer, besides the state. -/
structure Answer where
  /-- The status codes. -/
  statuses : List U32
  /-- The events. -/
  events : List EventIntent

/-- What the host sees of the answer to a message. -/
def answerOf (out : MessageOutput) : Answer := ⟨[out.statusCode], out.eventIntents⟩

/-- What the host sees of the answer to a batch. -/
def batchAnswerOf (out : BatchOutput) : Answer := ⟨out.statusCodes, out.eventIntents⟩

section

variable [Target]

/-- A canonical frame for `process_message` or `process_batch`. -/
inductive Frame
  | message (b : Slice) (x : MessageInput) (decodes : decodeMessageInput b.bytes = .ok x)
  | batch (b : Slice) (input : BatchInput) (decodes : decodeBatchInput b.bytes = .ok input)

/-- The frames for `process_batch`. -/
def Frame.IsBatch : Frame → Prop
  | .message .. => False
  | .batch .. => True

/-- The answer of a contract to a frame, with the state and the mode that the host puts into it, and
the state after it. -/
def Frame.serve (contract : BatchContract) (frame : Frame) (mode : StateOutputMode) (state : Bytes) :
    Answer × Bytes :=
  match frame with
  | .message _ x _ =>
      let out := contract.processMessage { x with state := state, requiredStateOutputMode := mode }
      (answerOf out, out.appliedTo state)
  | .batch _ input _ =>
      let out := contract.processBatch { input with state := state, requiredStateOutputMode := mode }
      (batchAnswerOf out, out.appliedTo state)

/-! ## What a frame does to a ledger -/

namespace Ledger

/-- What a message does to a ledger, as the host sees it. -/
def answered (l : Ledger) (x : MessageInput) : Answer × Ledger :=
  match l.handle x with
  | .ok c => (⟨[0], Layout.changeEvents c⟩, l.changed c)
  | .error code => (⟨[code], []⟩, l)

/-- What a batch does to a ledger, as the host sees it. -/
def batchAnswered (l : Ledger) (messages : List CanonicalMessage) : Answer × Ledger :=
  if maxBatch < messages.length then (⟨List.replicate messages.length eAuditArgs, []⟩, l)
  else (⟨(l.rounds messages).statuses, (l.rounds messages).events⟩, (l.rounds messages).ledger)

variable {l : Ledger}

/-- The answer to a message leaves a valid ledger, -/
theorem Valid.answered (hl : l.Valid) (x : MessageInput) : (l.answered x).2.Valid := by
  unfold Ledger.answered
  split
  next c hc => exact hl.changed hc
  next => exact hl

/-- and so does the answer to a batch. -/
theorem Valid.batchAnswered (hl : l.Valid) (messages : List CanonicalMessage) :
    (l.batchAnswered messages).2.Valid := by
  unfold Ledger.batchAnswered
  split_ifs
  · exact hl
  · exact hl.rounds messages

end Ledger

/-- The messages of a batch. -/
def carried (input : BatchInput) : List CanonicalMessage :=
  (batchItems input).filterMap Except.toOption

/-- What a frame does to a ledger, as the host sees it. -/
def Frame.answered (frame : Frame) (l : Ledger) : Answer × Ledger :=
  match frame with
  | .message _ x _ => l.answered x
  | .batch _ input _ => l.batchAnswered (carried input)

variable {l : Ledger} {x : MessageInput} {input : BatchInput} {messages : List CanonicalMessage}

/-- A frame leaves a valid ledger. -/
theorem Frame.valid_answered (frame : Frame) (hl : l.Valid) : (frame.answered l).2.Valid := by
  cases frame with
  | message b x decodes => exact hl.answered x
  | batch b input decodes => exact hl.batchAnswered _

/-- The messages that a batch input carries are the ones that were put in. -/
theorem carried_eq (hframed : input.Framed) (hms : input.Carries messages) :
    carried input = messages := by
  have hsome : ∀ m ∈ messages, Except.toOption (Except.ok m : Except DecodeError _) = some m :=
    fun _ _ => rfl
  unfold carried
  rw [Layout.batchItems_eq hframed hms, List.filterMap_map]
  exact (List.filterMap_congr hsome).trans (List.filterMap_some)

/-- A batch on another state. -/
theorem framed_withState (h : input.Framed) {state : Bytes} (hstate : state.length < 2 ^ 32)
    (mode : StateOutputMode) :
    { input with state := state, requiredStateOutputMode := mode }.Framed :=
  ⟨h.extra_ok, hstate, h.count_lt, h.offsets_length, h.offsets_le, h.first_offset, h.last_offset,
    h.internalEventResults_length⟩

/-- A batch carries its messages on every state. -/
theorem carries_withState (h : input.Carries messages) (state : Bytes) (mode : StateOutputMode) :
    { input with state := state, requiredStateOutputMode := mode }.Carries messages :=
  ⟨h.messages_ok, h.count_eq, h.offsets_eq, h.messageBytes_eq⟩

/-! ## Contracts that store a ledger -/

/-- **A contract that stores a ledger.** Messages and batches do to a state what they do to its
ledger; batches only in certain modes. -/
structure Keeps (contract : BatchContract) (encode : Ledger → Bytes) (modes : StateOutputMode → Prop) :
    Prop where
  length_lt : ∀ {l : Ledger}, l.Valid → (encode l).length < 2 ^ 32
  message : ∀ {l : Ledger} {x : MessageInput}, l.Valid → x.state = encode l →
    answerOf (contract.processMessage x) = (l.answered x).1 ∧
      (contract.processMessage x).appliedTo (encode l) = encode (l.answered x).2
  batch : ∀ {l : Ledger} {input : BatchInput} {messages : List CanonicalMessage}, l.Valid →
    input.state = encode l → input.Framed → input.Carries messages →
    modes input.requiredStateOutputMode →
    batchAnswerOf (contract.processBatch input) = (l.batchAnswered messages).1 ∧
      (contract.processBatch input).appliedTo (encode l) = encode (l.batchAnswered messages).2

/-- **A frame** does to a state what it does to its ledger. -/
theorem Keeps.serve {contract : BatchContract} {encode : Ledger → Bytes}
    {modes : StateOutputMode → Prop} (h : Keeps contract encode modes) (frame : Frame)
    {mode : StateOutputMode} (hmode : frame.IsBatch → modes mode) (hl : l.Valid) :
    frame.serve contract mode (encode l) = ((frame.answered l).1, encode (frame.answered l).2) := by
  cases frame with
  | message b x decodes =>
      obtain ⟨hanswer, hstate⟩ := h.message
        (x := { x with state := encode l, requiredStateOutputMode := mode }) hl rfl
      exact Prod.ext hanswer hstate
  | batch b input decodes =>
      obtain ⟨-, hframed, messages, hms⟩ := (decodeBatchInput_ok_iff b input).mp decodes
      obtain ⟨hanswer, hstate⟩ := h.batch hl rfl (framed_withState hframed (h.length_lt hl) mode)
        (carries_withState hms _ mode) (hmode trivial)
      unfold Frame.answered
      dsimp only
      rw [carried_eq hframed hms]
      exact Prod.ext hanswer hstate

namespace Layout.Lawful

variable {k : Layout} {encode : Ledger → Bytes} {recordsAt : U8 → ℕ} (h : k.Lawful encode recordsAt)

include h

/-- What a call does to the bytes of a ledger is what it does to the ledger. -/
theorem answered (hl : l.Valid) (hx : x.state = encode l) :
    answerOf (orFailure (k.isolated x)) = (l.answered x).1 ∧
      (orFailure (k.isolated x)).appliedTo (encode l) = encode (l.answered x).2 := by
  rw [h.isolated_eq hl hx]
  unfold Ledger.answered
  cases hhandle : l.handle x with
  | error code => exact ⟨rfl, rfl⟩
  | ok c =>
      refine ⟨rfl, ?_⟩
      rw [hx]
      exact h.appliedTo_changeAnswer hl hhandle x.requiredStateOutputMode

variable {Refused : BatchInput → Prop} [DecidablePred Refused]
  {update : BatchInput → List StatePatch → StateUpdate}

/-- A batch that is refused leaves the state. -/
theorem batchRefused (hl : l.Valid) (hx : input.state = encode l) (hrefused : Refused input) :
    batchAnswerOf (k.batch Refused update input) =
        ⟨List.replicate input.messageCount.toNat eAuditArgs, []⟩ ∧
      (k.batch Refused update input).appliedTo (encode l) = encode l := by
  have hbatch : k.batch Refused update input = failure input eAuditArgs := by
    unfold batch
    rw [hx, h.validate_eq hl]
    exact if_pos hrefused
  rw [hbatch, ← hx]
  exact ⟨rfl, appliedTo_replacement nofun⟩

/-- A batch, if the long ones are refused. -/
theorem batchAnswered (hl : l.Valid) (hx : input.state = encode l) (hframed : input.Framed)
    (hms : input.Carries messages) (hrefused : Refused input ↔ maxBatch < input.messageCount.toNat)
    (hupdate : ∀ patches,
      update input patches = replacement input.state input.requiredStateOutputMode patches) :
    batchAnswerOf (k.batch Refused update input) = (l.batchAnswered messages).1 ∧
      (k.batch Refused update input).appliedTo (encode l) =
        encode (l.batchAnswered messages).2 := by
  unfold Ledger.batchAnswered
  rw [← hms.count_eq]
  split_ifs with hlong
  · exact h.batchRefused hl hx (hrefused.mpr hlong)
  · obtain ⟨s, hs, hbatch⟩ := h.batch_eq hl hx hframed hms fun hno => hlong (hrefused.mp hno)
    rw [hbatch, hupdate, hx]
    exact ⟨rfl, h.appliedTo_patches hl hs _⟩

end Layout.Lawful

/-- The states of a ledger are short. -/
theorem Layout.Reads.length_encode_lt {k : Layout} {f : Format} (h : k.Reads f) (hl : l.Valid) :
    (f.encode l).length < 2 ^ 32 := by
  have hholds := (Format.encode_eq_iff (f := f) (l := l) h.length_head).mp rfl
  exact h.length_lt hholds.frames hl.count_le

/-- **The audit ledger** stores a ledger; its batches have to ask for patches. -/
theorem Legacy.keeps : Keeps Legacy.auditLedger Legacy.format.encode (· = .dataPatchList) where
  length_lt hl := Legacy.reads.length_encode_lt hl
  message hl hx := Legacy.reads.lawful.answered hl hx
  batch {l input messages} hl hx hframed hms hmode := by
    refine Legacy.reads.lawful.batchAnswered hl hx hframed hms ⟨fun h => ?_, .inr⟩ fun patches => ?_
    · exact h.resolve_left fun hno => hno hmode
    · unfold replacement
      rw [if_pos hmode]

/-- **A frame in any mode** does to the audit ledger what it does to its ledger, or leaves it: the
audit ledger refuses a batch that does not ask for patches. -/
theorem Legacy.serve_cases (frame : Frame) (mode : StateOutputMode) (hl : l.Valid) :
    (frame.serve Legacy.auditLedger mode (Legacy.format.encode l)).2 =
        Legacy.format.encode (frame.answered l).2 ∨
      (frame.serve Legacy.auditLedger mode (Legacy.format.encode l)).2 =
        Legacy.format.encode l := by
  by_cases hmode : frame.IsBatch → mode = .dataPatchList
  · exact .inl (congrArg Prod.snd (Legacy.keeps.serve frame hmode hl))
  · obtain ⟨hbatch, hother⟩ := Classical.not_imp.mp hmode
    cases frame with
    | message => cases hbatch
    | batch b input decodes =>
        let x : BatchInput :=
          { input with state := Legacy.format.encode l, requiredStateOutputMode := mode }
        have hrefused : Legacy.Refused x := .inl hother
        exact .inr (Legacy.reads.lawful.batchRefused hl rfl hrefused).2

/-- **The compact ledger** stores a ledger. -/
theorem Compact.keeps : Keeps Compact.auditLedger Compact.format.encode fun _ => True where
  length_lt hl := Compact.reads.length_encode_lt hl
  message hl hx := Compact.reads.lawful.answered hl hx
  batch hl hx hframed hms _ :=
    Compact.reads.lawful.batchAnswered hl hx hframed hms Iff.rfl fun _ => rfl

/-! ## The simulation -/

namespace Compact

variable {b old : Bytes}

/-- **Related states**: the conversion leads from one to the other. -/
def Related (b old : Bytes) : Prop := expandLegacy b = .ok old

/-- Related states store the same ledger. -/
theorem related_iff : Related b old ↔
    ∃ l : Ledger, l.Valid ∧ format.encode l = b ∧ Legacy.format.encode l = old :=
  expandLegacy_ok_iff

/-- A frame for both contracts, with the mode of each. The audit ledger is asked for patches in
batches, as it refuses all others. -/
structure Request where
  frame : Frame
  legacyMode : StateOutputMode
  compactMode : StateOutputMode
  patches : frame.IsBatch → legacyMode = .dataPatchList

/-- The compact ledger serves a request. -/
def Request.serveCompact (r : Request) (b : Bytes) : Answer × Bytes :=
  r.frame.serve auditLedger r.compactMode b

/-- The audit ledger serves a frame in a mode. -/
def serveLegacy (i : Frame × StateOutputMode) (old : Bytes) : Answer × Bytes :=
  i.1.serve Legacy.auditLedger i.2 old

/-- What the audit ledger gets of a request. -/
def Request.legacy (r : Request) : Frame × StateOutputMode := (r.frame, r.legacyMode)

/-- **The simulation**, frame by frame: from related states the contracts give the same answers, and
come to related states. -/
theorem simulates_legacy :
    Alloc.Simulates Related Request.serveCompact serveLegacy Request.legacy id := by
  intro r b old hrelated
  obtain ⟨l, hl, rfl, rfl⟩ := related_iff.mp hrelated
  have hcompact : r.frame.serve auditLedger r.compactMode (format.encode l) = _ :=
    keeps.serve r.frame (fun _ => trivial) hl
  have hlegacy := Legacy.keeps.serve r.frame r.patches hl
  unfold Request.serveCompact serveLegacy Request.legacy
  rw [hcompact, hlegacy]
  exact ⟨rfl, related_iff.mpr ⟨_, r.frame.valid_answered hl, rfl, rfl⟩⟩

/-- The audit ledger does to its state what the requests do to the ledger in it. -/
theorem legacy_serves : Alloc.Simulates (fun (l : Ledger) b => l.Valid ∧ Legacy.format.encode l = b)
    (fun (r : Request) l => r.frame.answered l) serveLegacy Request.legacy id := by
  rintro r l _ ⟨hl, rfl⟩
  unfold serveLegacy Request.legacy
  rw [Legacy.keeps.serve r.frame r.patches hl]
  exact ⟨rfl, r.frame.valid_answered hl, rfl⟩

/-- A deployment fails in the same way over all layouts, or starts the ledger of an owner that is
not zero. -/
theorem initializeLedger_cases (hwell : x.WellFormed) :
    (∃ code, code ≠ 0 ∧ ∀ fresh, Layout.initializeLedger fresh x = .error code) ∨
      ∃ owner deploy, x.caller = .external owner ∧ x.deploy = .ok deploy ∧
        (Ledger.new owner (deploy.initData.getD 0 0)).Valid ∧ ∀ fresh,
        Layout.initializeLedger fresh x =
          .ok (MessageOutput.success (.fullReplace (fresh owner (deploy.initData.getD 0 0)))) := by
  unfold Layout.initializeLedger
  cases hcaller : x.caller with
  | internal source => exact .inl ⟨eAuditAuth, by decide, fun _ => rfl⟩
  | external owner =>
      have howner : owner ≠ zeros 32 := by
        have hsender := hwell.caller_eq
        have hmessage := hwell.message_ok
        rw [hcaller] at hsender
        cases hm : x.message with
        | internal m =>
            rw [hm] at hsender
            cases hsender
        | external m =>
            rw [hm] at hsender hmessage
            obtain rfl : owner = m.pubkey := Caller.external.inj hsender
            exact hmessage.pubkey_ne_zero
      cases hdeploy : x.deploy with
      | error e => exact .inl ⟨eArgs, by decide, fun _ => rfl⟩
      | ok deploy =>
          by_cases hguard : x.requiredStateOutputMode ≠ .fullReplace ∨
              deploy.initData.length ≠ 1 ∨ deploy.initData.getD 0 0 = 0 ∨
              16 < deploy.initData.getD 0 0 ∨ x.state ≠ [] ∨ ¬ x.message.extra.isEmpty
          · refine .inl ⟨eAuditArgs, by decide, fun fresh => ?_⟩
            simp only [Except.mapError, ok_bind, failIf, if_pos hguard, error_bind]
          · refine .inr ⟨owner, deploy, rfl, rfl, ?_, fun fresh => ?_⟩
            · push Not at hguard
              exact Ledger.valid_new howner hguard.2.2.1
                (Legacy.not_sixteen_lt_iff.mp hguard.2.2.2.1)
            · simp only [Except.mapError, ok_bind, failIf, if_neg hguard]
              rfl

/-- **Deployments** fail with the same code, or lead to related states. -/
theorem init_related (hx : x.WellFormed) :
    answerOf (auditLedger.init x) = answerOf (Legacy.auditLedger.init x) ∧
      ((Legacy.auditLedger.init x).statusCode = 0 →
        Related ((auditLedger.init x).appliedTo x.state)
          ((Legacy.auditLedger.init x).appliedTo x.state)) := by
  show answerOf (orFailure _) = answerOf (orFailure _) ∧ ((orFailure _).statusCode = 0 → Related
    ((orFailure _).appliedTo x.state) ((orFailure _).appliedTo x.state))
  rcases initializeLedger_cases hx with
    ⟨code, hne, hfails⟩ | ⟨owner, deploy, -, -, hnew, hstarts⟩
  · rw [hfails, hfails]
    exact ⟨rfl, fun hzero => absurd hzero hne⟩
  · -- the states are not compared byte by byte
    have hanswer (state : Bytes) :
        answerOf (orFailure (.ok (MessageOutput.success (.fullReplace state)))) = ⟨[0], []⟩ := rfl
    rw [hstarts, hstarts, hanswer, hanswer]
    refine ⟨rfl, fun _ => related_iff.mpr ⟨_, hnew, (fresh_eq owner _).symm, ?_⟩⟩
    exact (Legacy.fresh_eq hnew.count_le).symm

/-- A deployment of the audit ledger that succeeds starts the ledger of its owner. -/
theorem init_legacy (hx : x.WellFormed) (hstatus : (Legacy.auditLedger.init x).statusCode = 0) :
    ∃ owner deploy, x.caller = .external owner ∧ x.deploy = .ok deploy ∧
      (Ledger.new owner (deploy.initData.getD 0 0)).Valid ∧ Legacy.auditLedger.init x =
        MessageOutput.success
          (.fullReplace (Legacy.format.encode (Ledger.new owner (deploy.initData.getD 0 0)))) := by
  change (orFailure (Layout.initializeLedger Legacy.fresh x)).statusCode = 0 at hstatus
  rcases initializeLedger_cases hx with
    ⟨code, hne, hfails⟩ | ⟨owner, deploy, hcaller, hdeploy, hnew, hstarts⟩
  · rw [hfails] at hstatus
    exact absurd hstatus hne
  · refine ⟨owner, deploy, hcaller, hdeploy, hnew, ?_⟩
    show orFailure (Layout.initializeLedger Legacy.fresh x) = _
    have hfresh : Legacy.fresh owner (deploy.initData.getD 0 0) = _ := Legacy.fresh_eq hnew.count_le
    rw [hstarts, orFailure_ok]
    exact congrArg (fun state => MessageOutput.success (.fullReplace state)) hfresh

/-- **A running audit ledger**: the state after a deployment and any frames, in any modes. -/
def Running (old : Bytes) : Prop :=
  ∃ (frame : Slice) (x : MessageInput) (frames : List (Frame × StateOutputMode)),
    decodeMessageInput frame.bytes = .ok x ∧ (Legacy.auditLedger.init x).statusCode = 0 ∧
      (Alloc.run serveLegacy frames ((Legacy.auditLedger.init x).appliedTo x.state)).2 = old

/-- A running audit ledger stores a ledger. -/
theorem Running.stored (h : Running old) : ∃ l : Ledger, l.Valid ∧ Legacy.format.encode l = old := by
  obtain ⟨frame, x, frames, hx, hstatus, rfl⟩ := h
  apply Alloc.run_invariant (I := fun old => ∃ l : Ledger, l.Valid ∧ Legacy.format.encode l = old)
  · rintro ⟨frame, mode⟩ _ ⟨l, hl, rfl⟩
    rcases Legacy.serve_cases frame mode hl with hserved | hkept
    · exact ⟨_, frame.valid_answered hl, hserved.symm⟩
    · exact ⟨l, hl, hkept.symm⟩
  · obtain ⟨l, hl, -, hold⟩ := related_iff.mp
      ((init_related ((decodeMessageInput_ok_iff frame x).mp hx).2).2 hstatus)
    exact ⟨l, hl, hold⟩

/-- **The compact ledger cannot be told from the audit ledger.** From related states both answer
every frame alike, in status codes and events, and come to related states; their deployments fail
with the same code or lead to related states; and behind the conversion of a running audit ledger,
both give the same answers to all frames, and hold the same records. -/
theorem indistinguishable :
    (∀ (r : Request) (b old : Bytes), Related b old →
      (r.serveCompact b).1 = (serveLegacy r.legacy old).1 ∧
        Related (r.serveCompact b).2 (serveLegacy r.legacy old).2) ∧
    (∀ (frame : Slice) (x : MessageInput), decodeMessageInput frame.bytes = .ok x →
      answerOf (auditLedger.init x) = answerOf (Legacy.auditLedger.init x) ∧
        ((Legacy.auditLedger.init x).statusCode = 0 →
          Related ((auditLedger.init x).appliedTo x.state)
            ((Legacy.auditLedger.init x).appliedTo x.state))) ∧
    ∀ old, Running old → ∃ b, compactLegacy old = .ok b ∧ ∀ rs : List Request,
      (Alloc.run Request.serveCompact rs b).1 =
          (Alloc.run serveLegacy (rs.map Request.legacy) old).1 ∧
        ∃ n, SameFields (Alloc.run serveLegacy (rs.map Request.legacy) old).2
          (Alloc.run Request.serveCompact rs b).2 n := by
  have hinit (frame : Slice) (x : MessageInput) (hx : decodeMessageInput frame.bytes = .ok x) :=
    init_related ((decodeMessageInput_ok_iff frame x).mp hx).2
  refine ⟨simulates_legacy, hinit, fun old hold => ?_⟩
  obtain ⟨l, hl, rfl⟩ := hold.stored
  have hrelated : Related (format.encode l) (Legacy.format.encode l) :=
    related_iff.mpr ⟨l, hl, rfl, rfl⟩
  refine ⟨_, expandLegacy_iff_compactLegacy.mp hrelated, fun rs => ?_⟩
  obtain ⟨hanswers, hstates⟩ := simulates_legacy.run rs hrelated
  rw [List.map_id] at hanswers
  exact ⟨hanswers, sameFields_of_compactLegacy (expandLegacy_iff_compactLegacy.mp hstates)⟩

end Compact

end

/-! ## A ledger with one member -/

section

local instance : Target := Target.wasm32

/-- A vault has room for a member. -/
theorem maxMembers_pos : 0 < maxMembers := by decide

/-- The member that is paid. -/
def sampleMember : Fin maxMembers := ⟨0, maxMembers_pos⟩

/-- The accounts of the receivers. -/
def sampleAddresses (i : Fin maxMembers) : AccountAddress :=
  sampleAccount (BitVec.ofNat 8 (21 + i.val))

/-- The deployment of a ledger with one member. -/
def sampleStart : MessageInput :=
  signedInput ⟨0, 0, 0, zeros 32⟩ (.ofEntries []) []
    { pubkey := sampleKey 31
      destination := sampleAccount 50
      deploys := true
      methodId := 0
      extra := .ofEntries []
      body := deployBody [1] }

/-- A call of the owner. -/
def sampleOrder (state : Bytes) (destination : AccountAddress) (methodId : U64) (body : Bytes) :
    MessageInput :=
  signedInput ⟨0, 0, 0, zeros 32⟩ (.ofEntries []) state
    { pubkey := sampleKey 31
      destination := destination
      deploys := false
      methodId := methodId
      extra := .ofEntries []
      body := body }

/-- A message between two accounts that names the member 0, the nonce 7 and the amount 5. -/
def sampleTransfer (source destination : AccountAddress) (methodId : U64) (handler : Option U64)
    (extra : List CurrencyAmount) : InternalMessage :=
  InternalMessage.sent
    { flags := if handler.isSome then internalFlagCallbackRequest else 0
      methodId := methodId
      fuelFeeShells := 1
      createdLt := 1
      createdAt := 0
      source := source
      destination := destination
      callback := none
      callbackHandlerMethodId := handler
      eventReads := none
      extra := .ofEntries extra
      body := paymentBody 0 7 5
      canonicalBytes := [] }

/-- The delivery of a message. -/
def sampleDelivery (state : Bytes) (message : InternalMessage) : MessageInput :=
  internalInput ⟨0, 0, 0, zeros 32⟩ (.ofEntries []) state message

/-- The binding of the member 0 to its receiver. -/
def sampleBinding : MessageInput :=
  sampleOrder [] (sampleAccount 50) Ids.auditBind (0 :: (sampleAddresses sampleMember).toBytes)

/-- The report of the payment. -/
def sampleReport : MessageInput :=
  sampleDelivery [] (sampleTransfer (sampleAddresses sampleMember) (sampleAccount 50)
    Ids.auditRecord none [])

/-- The ledger with the binding. -/
def sampleBound : Ledger := ((Ledger.new (sampleKey 31) 1).answered sampleBinding).2

/-- The ledger after the report. -/
def sampleTold : Ledger := (sampleBound.answered sampleReport).2

/-- The ledger after the report was delivered again. -/
def sampleToldAgain : Ledger := (sampleTold.answered sampleReport).2

/-- The binding and the report are frames. -/
theorem sampleBinding_decodes : decodeMessageInput sampleBinding.serialize = .ok sampleBinding := by
  decide +kernel

/-- The sample binding fits in the address space. -/
theorem sampleBinding_fits : sampleBinding.serialize.length ≤ usizeMax := by decide +kernel

/-- The sample report decodes, -/
theorem sampleReport_decodes : decodeMessageInput sampleReport.serialize = .ok sampleReport := by
  decide +kernel

/-- and fits in the address space. -/
theorem sampleReport_fits : sampleReport.serialize.length ≤ usizeMax := by decide +kernel

/-- The ledger after the deployment. -/
def sampleLedger : Ledger := Ledger.new (sampleKey 31) 1

/-- The requests: the binding, the report, and the report once more, in different modes. -/
def sampleRequests : List Compact.Request :=
  [⟨.message ⟨sampleBinding.serialize, sampleBinding_fits⟩ sampleBinding sampleBinding_decodes,
      .fullReplace, .dataPatchList, fun hno => hno.elim⟩,
    ⟨.message ⟨sampleReport.serialize, sampleReport_fits⟩ sampleReport sampleReport_decodes,
      .dataPatchList, .fullReplace, fun hno => hno.elim⟩,
    ⟨.message ⟨sampleReport.serialize, sampleReport_fits⟩ sampleReport sampleReport_decodes,
      .fullReplace, .fullReplace, fun hno => hno.elim⟩]

/-- The deployment succeeds, with this ledger. -/
theorem init_sampleStart : (Legacy.auditLedger.init sampleStart).statusCode = 0 ∧ sampleLedger.Valid ∧
    Legacy.auditLedger.init sampleStart =
      MessageOutput.success (.fullReplace (Legacy.format.encode sampleLedger)) := by
  have hdecodes : decodeMessageInput sampleStart.serialize = .ok sampleStart := by decide +kernel
  have hwf := (exists_frame hdecodes (by decide +kernel)).1
  have hstatus : (Legacy.auditLedger.init sampleStart).statusCode = 0 := by decide +kernel
  obtain ⟨owner, deploy, hcaller, hdeploy, hvalid, hinit⟩ := Compact.init_legacy hwf hstatus
  have hdeploy' : sampleStart.deploy = .ok ⟨zeros 32, zeros 32, [], [], [1]⟩ :=
    deploy_signedInput rfl rfl (by decide)
  rw [hdeploy', Except.ok.injEq] at hdeploy
  obtain rfl : sampleKey 31 = owner := Caller.external.inj hcaller
  rw [← hdeploy] at hvalid hinit
  exact ⟨hstatus, hvalid, hinit⟩

/-- The deployed ledger runs. -/
theorem sampleLedger_running : Compact.Running (Legacy.format.encode sampleLedger) := by
  have hdecodes : decodeMessageInput sampleStart.serialize = .ok sampleStart := by decide +kernel
  obtain ⟨frame, hframe⟩ := (exists_frame hdecodes (by decide +kernel)).2
  refine ⟨frame, sampleStart, [], hframe, init_sampleStart.1, ?_⟩
  rw [init_sampleStart.2.2]
  rfl

/-- Both ledgers take the binding and the report, and refuse the report when it comes again. -/
theorem Compact.indistinguishable_sample :
    (Alloc.run Compact.serveLegacy (sampleRequests.map Compact.Request.legacy)
        (Legacy.format.encode sampleLedger)).1.map Answer.statuses = [[0], [0], [eAuditReplay]] ∧
      ∃ b, Compact.compactLegacy (Legacy.format.encode sampleLedger) = .ok b ∧
        (Alloc.run Compact.Request.serveCompact sampleRequests b).1 =
          (Alloc.run Compact.serveLegacy (sampleRequests.map Compact.Request.legacy)
            (Legacy.format.encode sampleLedger)).1 := by
  obtain ⟨b, hb, hruns⟩ := Compact.indistinguishable.2.2 _ sampleLedger_running
  refine ⟨?_, b, hb, (hruns sampleRequests).1⟩
  obtain ⟨hanswers, -⟩ := Compact.legacy_serves.run sampleRequests
    (s := sampleLedger) ⟨init_sampleStart.2.1, rfl⟩
  rw [← hanswers]
  decide +kernel

end

end AvmSdk.Audit
