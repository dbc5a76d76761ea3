import AvmSdk.Contracts.Hub.Config

/-!
# The state of a vault

The ledger of a vault: what it received and paid, the account of every member, and the proposal
that the signers vote on.

* `State.decode`, `State.encode`, `State.validate` and the sums `pending`, `held`, `dust`, as the
  code computes them. `State.deposit`: the one operation that is not inlined in the vault.
* `Proposal.decodeBody_ok_iff`: the bodies that propose something.
-/

namespace AvmSdk.Hub

open Wire Sdk Contracts Shares

/-- Source: `STATE_BYTES` -/
abbrev stateBytes : ℕ := 3560

/-- Source: `MEMBER_STATE_BASE` -/
abbrev memberStateBase : ℕ := 1896

/-- Source: `MEMBER_STATE_BYTES` -/
abbrev memberStateBytes : ℕ := 104

/-- Source: `PAUSE` -/
def pause : U8 := 1

/-- Source: `RESUME` -/
def resume : U8 := 2

/-- Source: `SET_FUEL` -/
def setFuel : U8 := 3

/-- Source: `MemberState` -/
structure MemberState where
  claimable : U128
  paid : U128
  pending : U128
  nonce : U64
  afterLt : U64
  lastCallbackLt : U64
  lastCallbackHash : Bytes32
deriving DecidableEq

/-- Source: `MemberState::default` -/
def MemberState.default : MemberState := ⟨0, 0, 0, 0, 0, 0, zeros 32⟩

/-- Source: `Proposal` -/
structure Proposal where
  nonce : U64
  action : U8
  votes : U8
  value : U128
  created : U32
  ready : U32
  expires : U32
deriving DecidableEq

namespace Proposal

/-- Source: `Proposal::default` -/
def default : Proposal := ⟨0, 0, 0, 0, 0, 0, 0⟩

/-- Source: `Proposal::body` -/
def body (self : Proposal) : Bytes := toLe self.nonce ++ (self.action :: toLe self.value)

/-- Source: `Proposal::decode_body` -/
def decodeBody [Target] (b : Bytes) : HubResult (U64 × U8 × U128) := do
  failIf (b.length ≠ 25) eArgs
  let nonce ← wordAt eArgs 64 b 0
  let action := b.getD 8 0
  let value ← wordAt eArgs 128 b 9
  failIf (nonce = 0 ∨ ¬ (action = pause ∨ action = resume ∨ action = setFuel) ∨
    action ≠ setFuel ∧ value ≠ 0 ∨ action = setFuel ∧ value = 0) eGovernance
  pure (nonce, action, value)

end Proposal

/-- Source: `State` -/
structure State where
  config : Config
  received : U128
  paid : U128
  claimNonce : U64
  proposalNonce : U64
  paused : Bool
  proposal : Proposal
  members : Fin maxMembers → MemberState
  fuelLimit : U128

namespace State

/-- Source: `State::new` -/
def new (config : Config) : State where
  config := config
  received := 0
  paid := 0
  claimNonce := 0
  proposalNonce := 0
  paused := false
  proposal := Proposal.default
  members := fun _ => MemberState.default
  fuelLimit := config.initialFuel

/-- Source: `State::pending` -/
def pending (self : State) : HubResult U128 :=
  (List.finRange maxMembers).foldlM
    (fun v i => okOr (wordCheckedAdd v (self.members i).pending) eState) 0

/-- Source: `State::held` -/
def held (self : State) : HubResult U128 :=
  okOr ((wordCheckedSub self.received self.paid).bind fun v =>
    self.pending.toOption.bind fun pending => wordCheckedSub v pending) eState

/-- Source: `State::dust` -/
def dust (self : State) : HubResult U128 := do
  let sum ← (firstIndices maxMembers self.config.count.toNat).foldlM (fun sum i => do
    let part ← entitlement self.received (self.config.members i).weight
    okOr (wordCheckedAdd sum part) eState) (0 : U128)
  okOr (wordCheckedSub self.received sum) eState

/-- The checks of one member, with the sums so far.
Source: `State::validate`, `for (i, m) in self.members.iter().enumerate()` -/
def checkMember (self : State) (sums : U128 × U128) (i : Fin maxMembers) :
    HubResult (U128 × U128) :=
  let m := self.members i
  if self.config.count.toNat ≤ i.val then do
    failIf (m ≠ MemberState.default) eState
    pure sums
  else do
    let sum ← okOr ((wordCheckedAdd m.paid m.claimable).bind (wordCheckedAdd · m.pending)) eState
    let part ← entitlement self.received (self.config.members i).weight
    failIf (sum ≠ part ∨ m.pending = 0 ∧ (m.nonce ≠ 0 ∨ m.afterLt ≠ 0) ∨
      m.pending ≠ 0 ∧ (m.nonce = 0 ∨ self.claimNonce < m.nonce ∨ m.afterLt < m.lastCallbackLt) ∨
      ¬ (m.lastCallbackLt = 0 ↔ m.lastCallbackHash = zeros 32)) eState
    let paid ← okOr (wordCheckedAdd sums.1 m.paid) eState
    let all ← okOr (wordCheckedAdd sums.2 sum) eState
    pure (paid, all)

/-- The checks of the proposal.
Source: `State::validate`, `let p = self.proposal` -/
def checkProposal [Target] (self : State) : HubResult Unit :=
  let p := self.proposal
  if p.nonce = 0 then failIf (p ≠ Proposal.default) eState
  else failIf (p.nonce ≠ self.proposalNonce ∨ p.votes = 0 ∨ p.votes &&& ~~~7 ≠ 0 ∨
    (Proposal.decodeBody p.body).toOption = none ∨
    wordCheckedAdd p.created self.config.delay ≠ some p.ready ∨
    wordCheckedAdd p.ready self.config.voteWindow ≠ some p.expires) eState

/-- Source: `State::validate` -/
def validate [Target] (self : State) : HubResult Unit := do
  self.config.validate.mapError fun _ => eState
  failIf (self.fuelLimit = 0) eState
  let (paid, all) ← (List.finRange maxMembers).foldlM self.checkMember ((0 : U128), (0 : U128))
  failIf (paid ≠ self.paid ∨ self.received < all ∨
    self.config.count.zeroExtend 128 ≤ self.received - all) eState
  self.checkProposal

/-- Source: `State::decode`, `for (i, m) in members.iter_mut().enumerate()` -/
def decodeMember [Target] (b : Bytes) (i : Fin maxMembers) : HubResult MemberState := do
  let o := memberStateBase + i.val * memberStateBytes
  let claimable ← wordAt eArgs 128 b o
  let paid ← wordAt eArgs 128 b (o + 16)
  let pending ← wordAt eArgs 128 b (o + 32)
  let nonce ← wordAt eArgs 64 b (o + 48)
  let afterLt ← wordAt eArgs 64 b (o + 56)
  let lastCallbackLt ← wordAt eArgs 64 b (o + 64)
  let lastCallbackHash ← arrayAt eArgs 32 b (o + 72)
  pure ⟨claimable, paid, pending, nonce, afterLt, lastCallbackLt, lastCallbackHash⟩

/-- Source: `State::decode`, `proposal: Proposal` -/
def decodeProposal [Target] (b : Bytes) : HubResult Proposal := do
  let nonce ← wordAt eArgs 64 b 1848
  let value ← wordAt eArgs 128 b 1864
  let created ← wordAt eArgs 32 b 1880
  let ready ← wordAt eArgs 32 b 1884
  let expires ← wordAt eArgs 32 b 1888
  pure ⟨nonce, b.getD 1856 0, b.getD 1857 0, value, created, ready, expires⟩

/-- Source: `State::decode` -/
def decode [Target] (b : Bytes) : HubResult State := do
  failIf (b.length ≠ stateBytes ∨ b.extract 1841 1848 ≠ (zeros 7).val ∨ 1 < b.getD 1840 0 ∨
    b.extract 1858 1864 ≠ (zeros 6).val ∨ b.extract 1892 1896 ≠ (zeros 4).val) eState
  let config ← (Config.decode (b.extract 0 configBytes)).mapError fun _ => eState
  let members ← tabulateM maxMembers (decodeMember b)
  let received ← wordAt eArgs 128 b 1792
  let paid ← wordAt eArgs 128 b 1808
  let claimNonce ← wordAt eArgs 64 b 1824
  let proposalNonce ← wordAt eArgs 64 b 1832
  let proposal ← decodeProposal b
  let s : State := ⟨config, received, paid, claimNonce, proposalNonce, b.getD 1840 0 = 1, proposal,
    members, config.initialFuel⟩
  s.validate
  pure s

/-- Source: `State::encode`, `for (i, m) in self.members.iter().enumerate()` -/
def encodeMember (m : MemberState) : Bytes :=
  [toLe m.claimable, toLe m.paid, toLe m.pending, toLe m.nonce, toLe m.afterLt,
    toLe m.lastCallbackLt, m.lastCallbackHash.val].flatten

/-- The proposal with the reserved bytes in it and behind it.
Source: `State::encode`, `let p = self.proposal` -/
def encodeProposal (p : Proposal) : Bytes :=
  [toLe p.nonce, [p.action], [p.votes], (zeros 6).val, toLe p.value, toLe p.created, toLe p.ready,
    toLe p.expires, (zeros 4).val].flatten

/-- The fields one after the other, as they stand in the buffer of zeros that the source fills. The
fuel limit takes the place of the initial fuel.
Source: `State::encode` -/
def encode (self : State) : Bytes :=
  [{ self.config with initialFuel := self.fuelLimit }.encode, toLe self.received, toLe self.paid,
    toLe self.claimNonce, toLe self.proposalNonce, [if self.paused then 1 else 0], (zeros 7).val,
    encodeProposal self.proposal,
    (List.ofFn fun i => encodeMember (self.members i)).flatten].flatten

/-- The credit of one member by a deposit.
Source: `State::deposit`, `for (i, m) in members` -/
def creditMember (self : State) (next : U128) (i : Fin maxMembers) : HubResult MemberState :=
  let m := self.members i
  if i.val < self.config.count.toNat then do
    let w := (self.config.members i).weight
    let after ← entitlement next w
    let before ← entitlement self.received w
    let delta ← okOr (wordCheckedSub after before) eState
    let claimable ← okOr (wordCheckedAdd m.claimable delta) eOverflow
    pure { m with claimable := claimable }
  else pure m

/-- Source: `State::deposit` -/
def deposit [Target] (self : State) (amount : U128) : HubResult State := do
  failIf (amount = 0) eValue
  let next ← okOr (wordCheckedAdd self.received amount) eOverflow
  let members ← tabulateM maxMembers (self.creditMember next)
  let s := { self with received := next, members := members }
  s.validate
  pure s

end State

end AvmSdk.Hub
