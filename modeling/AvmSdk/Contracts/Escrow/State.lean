import AvmSdk.Contracts.Escrow.Config

/-!
# The state of a bounty escrow

The phase and the delivery hash of every milestone, the sums that were paid and refunded, the one
transfer that may be pending, and the hashes of the accepted callbacks.

`State.refundable`, `State.validate`, `State.encode` and `State.decode`, as the code computes them.
-/

namespace AvmSdk.Escrow

open Wire Sdk Contracts

/-- Source: `STATE_BYTES` -/
abbrev stateBytes : ℕ := 2768

/-- Source: `OPEN` -/
def phaseOpen : U8 := 0
/-- Source: `SUBMITTED` -/
def phaseSubmitted : U8 := 1
/-- Source: `APPROVED` -/
def phaseApproved : U8 := 2
/-- Source: `PAID` -/
def phasePaid : U8 := 3
/-- Source: `REFUNDED` -/
def phaseRefunded : U8 := 4

/-- The phases whose amount goes back when the deadline has passed.
Source: `matches!(.., OPEN | SUBMITTED)` -/
def Refundable (phase : U8) : Prop := phase = phaseOpen ∨ phase = phaseSubmitted

instance : DecidablePred Refundable := fun _ => inferInstanceAs (Decidable (_ ∨ _))

/-- A byte as the index of a milestone; it is only used below the count of a valid configuration.
Source: `usize::from(p.index)` -/
def milestone (b : U8) : Fin maxMilestones := Fin.ofNat maxMilestones b.toNat

/-- The kind is 0 if nothing is pending, 1 for a payment and 2 for a refund. Source: `Pending` -/
structure Pending where
  kind : U8
  index : U8
  amount : U128
  attempt : U64
deriving DecidableEq

/-- Source: `Pending::default` -/
def Pending.default : Pending := ⟨0, 0, 0, 0⟩

/-- Source: `payment_body` -/
def paymentBody (p : Pending) : Bytes :=
  [0x42, 0x45, 0x50, 0x31] ++ [p.kind, p.index, 0, 0] ++ toLe p.attempt ++ toLe p.amount

/-- Source: `State` -/
structure State where
  config : Config
  funded : U128
  paid : U128
  refunded : U128
  attempts : U64
  pending : Pending
  phases : Fin maxMilestones → U8
  deliveryHashes : Fin maxMilestones → Bytes32
  receipts : List Bytes32

namespace State

/-- Source: `State::new` -/
def new (config : Config) : State where
  config := config
  funded := 0
  paid := 0
  refunded := 0
  attempts := 0
  pending := Pending.default
  phases := fun _ => phaseOpen
  deliveryHashes := fun _ => zeros 32
  receipts := []

/-- Source: `State::refundable` -/
def refundable (self : State) : ResultCode U128 :=
  ((firstIndices maxMilestones self.config.count.toNat).filter
    fun i => Refundable (self.phases i)).foldlM
    (fun sum i => okOr (wordCheckedAdd sum (self.config.amounts i)) errState) 0

/-- One entry of a checked sum, if it counts. Source: `State::validate`, `if p == PAID` -/
def addIf (c : Prop) [Decidable c] (v amount : U128) : ResultCode U128 :=
  if c then okOr (wordCheckedAdd v amount) errState else .ok v

/-- The checks of one milestone, with the sums so far. Source: `State::validate`, `for i in 0..n` -/
def checkMilestone (self : State) (sums : U128 × U128) (i : Fin maxMilestones) :
    ResultCode (U128 × U128) := do
  let p := self.phases i
  failIf (phaseRefunded < p ∨ p = phaseOpen ∧ self.deliveryHashes i ≠ zeros 32 ∨
    (p = phaseSubmitted ∨ p = phaseApproved ∨ p = phasePaid) ∧
      self.deliveryHashes i = zeros 32) errState
  let paid ← addIf (p = phasePaid) sums.1 (self.config.amounts i)
  let refunded ← addIf (p = phaseRefunded) sums.2 (self.config.amounts i)
  pure (paid, refunded)

/-- The checks of the pending transfer. Source: `State::validate`, `match p.kind` -/
def checkPending (self : State) : ResultCode Unit :=
  let p := self.pending
  if p.kind = 0 then failIf (p ≠ Pending.default) errState
  else if p.kind = 1 then
    failIf (self.config.count.toNat ≤ p.index.toNat ∨
      self.phases (milestone p.index) ≠ phaseApproved ∨
      p.amount ≠ self.config.amounts (milestone p.index)) errState
  else if p.kind = 2 then do
    failIf (p.index ≠ 255 ∨ p.amount = 0) errState
    let refundable ← self.refundable
    failIf (p.amount ≠ refundable) errState
  else .error errState

/-- Source: `State::validate` -/
def validate (self : State) : ResultCode Unit := do
  let n := self.config.count.toNat
  failIf (maxAttempts < self.attempts.toNat ∨
    self.receipts.length + (if self.pending.kind ≠ 0 then 1 else 0) ≠ self.attempts.toNat ∨
    (∃ p ∈ self.receipts.zipIdx, p.1 = zeros 32 ∨ p.1 ∈ self.receipts.take p.2) ∨
    self.funded ≠ 0 ∧ self.funded ≠ self.config.total ∨
    self.funded = 0 ∧ (self.attempts ≠ 0 ∨ ∃ i, self.phases i ≠ phaseOpen) ∨
    (∃ i : Fin maxMilestones, n ≤ i.val ∧ self.phases i ≠ phaseOpen) ∨
    ∃ i : Fin maxMilestones, n ≤ i.val ∧ self.deliveryHashes i ≠ zeros 32) errState
  let (paid, refunded) ← (firstIndices maxMilestones n).foldlM self.checkMilestone
    ((0 : U128), (0 : U128))
  failIf (paid ≠ self.paid ∨ refunded ≠ self.refunded ∨
    (wordCheckedAdd paid refunded).all (fun v => decide (self.funded < v)) = true) errState
  self.checkPending
  failIf (self.pending.kind ≠ 0 ∧ (self.pending.attempt ≠ self.attempts ∨ self.funded = 0)) errState

/-- A slot of the list of receipts in the buffer. -/
def receiptSlot (receipts : List Bytes32) (i : Fin maxAttempts) : Bytes32 :=
  receipts.getD i.val (zeros 32)

/-- The fields one after the other, as they stand in the buffer of zeros that the source fills; it
has room for the receipts of all states that pass the check. Source: `State::encode` -/
def encode (self : State) : Bytes :=
  [self.config.encode, toLe self.funded, toLe self.paid, toLe self.refunded, toLe self.attempts,
    [self.pending.kind], [self.pending.index], (zeros 6).val, toLe self.pending.amount,
    toLe self.pending.attempt, (List.ofFn fun i => [self.phases i]).flatten,
    (List.ofFn fun i => (self.deliveryHashes i).val).flatten,
    toLe (BitVec.ofNat 64 self.receipts.length),
    (List.ofFn fun i => (receiptSlot self.receipts i).val).flatten].flatten

section

variable [Target]

/-- One slot of the list of receipts. Source: `State::decode`, `for i in 0..MAX_ATTEMPTS` -/
def decodeReceipt (b : Bytes) (receiptCount : U64) (receipts : List Bytes32) (i : Fin maxAttempts) :
    ResultCode (List Bytes32) := do
  let hash ← arrayAt errArgs 32 b (720 + i.val * 32)
  if i.val < receiptCount.toNat then pure (receipts ++ [hash])
  else do
    failIf (hash ≠ zeros 32) errState
    pure receipts

/-- Source: `State::decode` -/
def decode (b : Bytes) : ResultCode State := do
  failIf (b.length ≠ stateBytes ∨ b.extract 418 424 ≠ (zeros 6).val) errState
  let receiptCount ← wordAt errArgs 64 b 712
  failIf (maxAttempts < receiptCount.toNat) errState
  let hashes ← tabulateM maxMilestones fun i => arrayAt errArgs 32 b (456 + i.val * 32)
  let receipts ← (List.finRange maxAttempts).foldlM (decodeReceipt b receiptCount) []
  let config ← (Config.decode (b.extract 0 configBytes)).mapError fun _ => errState
  let funded ← wordAt errArgs 128 b 360
  let paid ← wordAt errArgs 128 b 376
  let refunded ← wordAt errArgs 128 b 392
  let attempts ← wordAt errArgs 64 b 408
  let amount ← wordAt errArgs 128 b 424
  let attempt ← wordAt errArgs 64 b 440
  let phases ← arrayAt errArgs 8 b 448
  let state : State :=
    { config := config
      funded := funded
      paid := paid
      refunded := refunded
      attempts := attempts
      pending := ⟨b.getD 416 0, b.getD 417 0, amount, attempt⟩
      phases := fun i => phases.val.getD i.val 0
      deliveryHashes := hashes
      receipts := receipts }
  state.validate
  pure state

end

end State

end AvmSdk.Escrow
