import AvmSdk.Contracts.Hub.Core
import AvmSdk.Sdk.Input.Deploy
import AvmSdk.Sdk.Output.Update
import AvmSdk.Sdk.Runtime.Dispatch
import AvmSdk.Wire.Iteration

/-!
# The code of an audit ledger

The contract `revenue-hub/contracts/audit` and its compact variant `experiments/compact-audit` are one
program over two layouts of the state. Here the program is written once, over a `Layout`; the two
contracts are its instances.

* `Record`: what a ledger stores about a member. `Layout`: what the two contracts do differently.
* `Layout.validate`, `Layout.accepted`, `Layout.isolated`, `Layout.batch`: the program.
-/

namespace AvmSdk.Audit

open Wire Sdk Contracts Hub

/-- Source: `RECORD_BYTES` -/
def recordBytes : ℕ := 32

/-- Source: `MAX_BATCH` -/
def maxBatch : ℕ := 256

/-- Source: `E_AUDIT_ARGS` -/
def eAuditArgs : U32 := 3200
/-- Source: `E_AUDIT_AUTH` -/
def eAuditAuth : U32 := 3201
/-- Source: `E_AUDIT_REPLAY` -/
def eAuditReplay : U32 := 3202
/-- Source: `E_AUDIT_OVERFLOW` -/
def eAuditOverflow : U32 := 3203

namespace Ids

/-- Source: `ids::AUDIT_BIND` -/
def auditBind : U64 := 0x52a0891f16d93693
/-- Source: `ids::AUDIT_STATUS` -/
def auditStatus : U64 := 0x4838e7c764485c02

end Ids

/-- Source: `Record` -/
structure Record where
  lastNonce : U64
  total : U128
  count : U64
deriving DecidableEq

namespace Record

/-- Source: `Record::default` -/
def default : Record := ⟨0, 0, 0⟩

/-- Source: `Record::decode` -/
def decode [Target] (b : Bytes) : HubResult Record := do
  failIf (b.length ≠ recordBytes) eAuditArgs
  let lastNonce ← wordAt eArgs 64 b 0
  let total ← wordAt eArgs 128 b 8
  let count ← wordAt eArgs 64 b 24
  pure ⟨lastNonce, total, count⟩

/-- Source: `Record::encode` -/
def encode (self : Record) : Bytes := toLe self.lastNonce ++ toLe self.total ++ toLe self.count

/-- A record that `validate` refuses. Source: `validate`, `r.count == 0 && r != Record::default()` -/
def Malformed (r : Record) : Prop :=
  (r.count = 0 ∧ r ≠ default) ∨ (r.count ≠ 0 ∧ (r.lastNonce = 0 ∨ r.total = 0))

instance (r : Record) : Decidable r.Malformed := inferInstanceAs (Decidable (_ ∨ _))

/-- A record after one more report. Source: `accepted`, `let old = records[index]` -/
def add (old : Record) (nonce : U64) (amount : U128) : HubResult Record := do
  failIf (nonce ≤ old.lastNonce) eAuditReplay
  let total ← okOr (wordCheckedAdd old.total amount) eAuditOverflow
  let count ← okOr (wordCheckedAdd old.count 1) eAuditOverflow
  pure ⟨nonce, total, count⟩

end Record

/-- The message is no report. Source: `accepted`, `m.method_id != ids::AUDIT_RECORD` -/
def NoReport (m : InternalMessage) : Prop :=
  m.methodId ≠ Ids.auditRecord ∨ (CanonicalMessage.internal m).isCallback ∨
    (CanonicalMessage.internal m).isDeploy ∨ (CanonicalMessage.internal m).hasCallbackRequest ∨
    m.eventReads.isSome ∨ ¬ m.extra.isEmpty

instance (m : InternalMessage) : Decidable (NoReport m) := inferInstanceAs (Decidable (_ ∨ _))

/-- An index of the code as the index of a slot; the code only uses indices below `MAX_MEMBERS`. -/
def slot (index : ℕ) : Fin maxMembers := ⟨index % maxMembers, Nat.mod_lt _ (by decide)⟩

/-- Source: `[Record; MAX_MEMBERS]` -/
abbrev Records : Type := Fin maxMembers → Record

/-- A report that was taken: member, nonce, amount and the record after it.
Source: `accepted`, `(usize, u64, u128, Record)` -/
structure Entry where
  index : ℕ
  nonce : U64
  amount : U128
  record : Record

/-- What the two contracts do differently: where the fields of a state stand, and what a state must
look like. -/
structure Layout where
  /-- The offset of the owner. -/
  owner : ℕ
  /-- The offset of the sources. -/
  bindings : ℕ
  /-- The offset of the records. Source: `RECORD_BASE`, `record_base` -/
  records : Bytes → ℕ
  /-- The number of members, after the checks of `validate` in front of its loop. -/
  header : Bytes → HubResult ℕ
  /-- Source: `record` -/
  record : Bytes → ℕ → HubResult Record

/-- Source: `replacement` -/
def replacement (b : Bytes) (mode : StateOutputMode) (patches : List StatePatch) : StateUpdate :=
  if mode = .dataPatchList then .dataPatchList patches
  else .fullReplace (patches.foldl (fun next p => patch next p.offset.toNat p.newBytes) b)

section

variable [Target]

/-- Source: `audit_event` -/
def auditEvent (inputIndex : U32) (entry : Entry) : HubResult EventIntent :=
  event inputIndex "hub.audited"
    [⟨"amount", .u128 entry.amount⟩, ⟨"member", .u64 (BitVec.ofNat 64 entry.index)⟩,
      ⟨"nonce", .u64 entry.nonce⟩, ⟨"receipts", .u64 entry.record.count⟩,
      ⟨"total", .u128 entry.record.total⟩]

/-- Source: `validate`, `if source != zero_address()` -/
def pushSource (sources : List AccountAddress) (source : AccountAddress) :
    HubResult (List AccountAddress) :=
  if source = zeroAddress then .ok sources
  else do
    failIf (¬ nonzeroAddress source ∨ source ∈ sources) eAuditArgs
    pure (sources ++ [source])

namespace Layout

/-- The source of a member. Source: `address_at(b, 68 + i * 64)` -/
def sourceAt (self : Layout) (b : Bytes) (index : ℕ) : HubResult AccountAddress :=
  addressAt eArgs b (self.bindings + index * 64)

/-- The checks of one member, with the sources so far. Source: `validate`, `for i in 0..count` -/
def checkMember (self : Layout) (b : Bytes) (sources : List AccountAddress) (i : ℕ) :
    HubResult (List AccountAddress) := do
  let source ← self.sourceAt b i
  let sources ← pushSource sources source
  let r ← self.record b i
  failIf r.Malformed eAuditArgs
  pure sources

/-- Source: `validate` -/
def validate (self : Layout) (b : Bytes) : HubResult ℕ := do
  let count ← self.header b
  let _ ← (List.range count).foldlM (self.checkMember b) []
  pure count

/-- Source: `patch` -/
def recordPatch (self : Layout) (b : Bytes) (index : ℕ) (r : Record) : StatePatch where
  offset := BitVec.ofNat 32 (self.records b + index * recordBytes)
  oldLen := BitVec.ofNat 32 recordBytes
  newBytes := r.encode

/-- Source: `isolated` and `process_batch`, `for (i, r) in records[..count].iter_mut().enumerate()` -/
def loadRecords (self : Layout) (b : Bytes) (count : ℕ) : HubResult Records :=
  tabulateM maxMembers fun i => if i.val < count then self.record b i.val else pure Record.default

/-- Source: `accepted`, with the records after it -/
def accepted (self : Layout) (b : Bytes) (count : ℕ) (source : AccountAddress)
    (message : CanonicalMessage) (records : Records) : HubResult (Entry × Records) :=
  match message with
  | .external _ => .error eAuditAuth
  | .internal m => do
      failIf (NoReport m) eAuditArgs
      let (index, nonce, amount) ← readPayment m.body
      failIf (count ≤ index) eAuditAuth
      let bound ← self.sourceAt b index
      failIf (source ≠ bound) eAuditAuth
      let r ← (records (slot index)).add nonce amount
      pure (⟨index, nonce, amount, r⟩, Function.update records (slot index) r)

/-- Source: `isolated`, `ids::AUDIT_STATUS` -/
def status (input : MessageInput) : HubResult MessageOutput :=
  match input.caller with
  | .internal _ => .error eAuditAuth
  | .external _ => do
      noBody eArgs input.message.body
      failIf (¬ input.message.extra.isEmpty) eAuditArgs
      pure (MessageOutput.success (replacement input.state input.requiredStateOutputMode []))

/-- Source: `isolated`, `for i in 0..count` -/
def checkFree (self : Layout) (b : Bytes) (source : AccountAddress) (i : ℕ) : HubResult Unit := do
  let other ← self.sourceAt b i
  failIf (other = source) eAuditArgs

/-- Source: `isolated`, `ids::AUDIT_BIND` -/
def bind (self : Layout) (input : MessageInput) (count : ℕ) : HubResult MessageOutput := do
  let owner ← arrayAt eArgs 32 input.state self.owner
  failIf (input.caller ≠ .external owner) eAuditAuth
  let body := input.message.body
  failIf (body.length ≠ 65 ∨ count ≤ (body.getD 0 0).toNat ∨ ¬ input.message.extra.isEmpty)
    eAuditArgs
  let index := (body.getD 0 0).toNat
  let source ← addressAt eArgs body 1
  failIf (¬ nonzeroAddress source ∨ source.dappId ≠ input.destination.dappId ∨
    source = input.destination) eAuditArgs
  let bound ← self.sourceAt input.state index
  failIf (bound ≠ zeroAddress) eAuditArgs
  (List.range count).forM (self.checkFree input.state source)
  let p : StatePatch := ⟨BitVec.ofNat 32 (self.bindings + index * 64), 64, body.drop 1⟩
  pure (MessageOutput.success (replacement input.state input.requiredStateOutputMode [p]))

/-- Source: `isolated`, `let Caller::Internal(source) = input.caller` and what follows -/
def report (self : Layout) (input : MessageInput) (count : ℕ) : HubResult MessageOutput :=
  match input.caller with
  | .external _ => .error eAuditAuth
  | .internal source => do
      let records ← self.loadRecords input.state count
      let (entry, _) ← self.accepted input.state count source input.message records
      let e ← auditEvent 0 entry
      let p := self.recordPatch input.state entry.index entry.record
      pure { MessageOutput.success (replacement input.state input.requiredStateOutputMode [p]) with
        eventIntents := [e] }

/-- Source: `isolated` -/
def isolated (self : Layout) (input : MessageInput) : HubResult MessageOutput := do
  let count ← self.validate input.state
  let method := input.message.methodId
  if method = Ids.auditStatus then status input
  else if method = Ids.auditBind then self.bind input count
  else self.report input count

end Layout

/-! ## Batches -/

/-- What `process_batch` has collected so far: the records, which of them were touched, the status
codes and the events. -/
structure Stage where
  records : Records
  touched : Fin maxMembers → Bool
  statuses : List U32
  events : List EventIntent

/-- The messages of a batch, as its iterator yields them. Source: `input.messages()` -/
def batchItems (input : BatchInput) : List (Except DecodeError CanonicalMessage) :=
  drain BatchMessageIter.next (input.messageCount.toNat + 1) input.messages

namespace Layout

/-- Source: `process_batch`, `let failure` -/
def failure (input : BatchInput) (code : U32) : BatchOutput where
  stateUpdate := replacement input.state input.requiredStateOutputMode []
  statusCodes := List.replicate input.messageCount.toNat code
  outboundIntents := []
  eventIntents := []

/-- Source: `process_batch`, `let result` -/
def received (self : Layout) (input : BatchInput) (count : ℕ) (records : Records)
    (message : Except DecodeError CanonicalMessage) : HubResult (Entry × Records) :=
  match message with
  | .ok (.internal m) =>
      if m.destination = input.destination then
        self.accepted input.state count m.source (.internal m) records
      else .error eAuditAuth
  | _ => .error eAuditAuth

/-- One round of the loop. Source: `process_batch`,
`for (input_index, message) in input.messages().enumerate()` -/
def take (self : Layout) (input : BatchInput) (count : ℕ) (stage : Stage)
    (item : Except DecodeError CanonicalMessage × ℕ) : HubResult Stage :=
  match self.received input count stage.records item.1 with
  | .ok (entry, records) => do
      let e ← auditEvent (BitVec.ofNat 32 item.2) entry
      pure
        { records := records
          touched := Function.update stage.touched (slot entry.index) true
          statuses := stage.statuses ++ [0]
          events := stage.events ++ [e] }
  | .error code => pure { stage with statuses := stage.statuses ++ [code] }

/-- The records and the loop over the messages. Source: `process_batch` -/
def stages (self : Layout) (input : BatchInput) (count : ℕ) : HubResult Stage := do
  let records ← (self.loadRecords input.state count).mapError fun _ => eAuditArgs
  (batchItems input).zipIdx.foldlM (self.take input count) ⟨records, fun _ => false, [], []⟩

/-- Source: `process_batch`, `let patches` -/
def patches (self : Layout) (b : Bytes) (stage : Stage) : List StatePatch :=
  ((List.finRange maxMembers).filter (stage.touched ·)).map fun i =>
    self.recordPatch b i.val (stage.records i)

/-- The two contracts refuse different batches and give their patches back in different ways.
Source: `process_batch` -/
def batch (self : Layout) (Refused : BatchInput → Prop) [DecidablePred Refused]
    (update : BatchInput → List StatePatch → StateUpdate) (input : BatchInput) : BatchOutput :=
  match self.validate input.state with
  | .error _ => failure input eAuditArgs
  | .ok count =>
      if Refused input then failure input eAuditArgs
      else match self.stages input count with
        | .error code => failure input code
        | .ok stage =>
            { stateUpdate := update input (self.patches input.state stage)
              statusCodes := stage.statuses
              outboundIntents := []
              eventIntents := stage.events }

/-- The two contracts start with different states. Source: `initialize` -/
def initializeLedger (fresh : Bytes32 → U8 → Bytes) (input : MessageInput) : HubResult MessageOutput :=
  match input.caller with
  | .internal _ => .error eAuditAuth
  | .external owner => do
      let deploy ← input.deploy.mapError fun _ => eArgs
      let init := deploy.initData
      failIf (input.requiredStateOutputMode ≠ .fullReplace ∨ init.length ≠ 1 ∨ init.getD 0 0 = 0 ∨
        16 < init.getD 0 0 ∨ input.state ≠ [] ∨ ¬ input.message.extra.isEmpty) eAuditArgs
      pure (MessageOutput.success (.fullReplace (fresh owner (init.getD 0 0))))

end Layout

end

end AvmSdk.Audit
