import AvmSdk.Contracts.Hub.Validity
import AvmSdk.Wire.Writes

/-!
# Stored vaults

The encoders fill a buffer of zeros field by field, each field at its own offset. Here are these
writes, in the order and at the offsets of the source.

* `Config.fill_writes`, `State.fill_writes`: no two writes meet, none leaves the buffer, and what
  they leave is the encoding, the fields one after the other with zeros between them.
* `vault_codec`: what is decoded was the encoding, and what is valid is decoded from its encoding.
-/

namespace AvmSdk.Hub

open Wire Sdk Contracts

namespace Config

/-- Source: `Config::encode`, `for (i, k) in self.signers.iter().enumerate()` and behind it -/
def fieldWrites (self : Config) : List (ℕ × Bytes) :=
  (List.finRange 3).map (fun i : Fin 3 => (i.val * 32, (self.signers i).val)) ++
    [(96, toLe self.delay), (100, toLe self.voteWindow), (104, toLe self.initialFuel),
      (120, [self.count])]

/-- Source: `Config::encode`, `for (i, m) in self.members.iter().enumerate()` -/
def memberWrites (m : Member) (o : ℕ) : List (ℕ × Bytes) :=
  [(o, m.key.val), (o + 32, m.destination.dappId.val), (o + 64, m.destination.accountId.val),
    (o + 96, toLe m.weight)]

/-- The writes into the buffer of zeros. Source: `Config::encode` -/
def writes (self : Config) : List (ℕ × Bytes) :=
  self.fieldWrites ++ (List.finRange maxMembers).flatMap fun i =>
    memberWrites (self.members i) (128 + i.val * 104)

variable {c : Config}

/-- The parts in front of the member table. -/
def front (c : Config) : List Bytes :=
  (List.ofFn fun i => (c.signers i).val) ++
    [toLe c.delay, toLe c.voteWindow, toLe c.initialFuel, [c.count], (zeros 7).val]

/-- The length of what stands before the members. -/
@[simp] theorem length_front (c : Config) : c.front.flatten.length = 128 := by
  simp [front]

/-- The parts of a row of the member table. -/
def memberParts (m : Member) : List Bytes :=
  [m.key.val, m.destination.dappId.val, m.destination.accountId.val, toLe m.weight, (zeros 6).val]

/-- The parts of a member make up its encoding. -/
theorem flatten_memberParts (m : Member) : (memberParts m).flatten = encodeMember m := by
  simp [memberParts, encodeMember, AccountAddress.toBytes]

/-- The encoding is the front and the table. -/
theorem encode_eq (c : Config) : c.encode =
    c.front.flatten ++ (List.ofFn fun i => (memberParts (c.members i)).flatten).flatten := by
  simp [encode, front, flatten_memberParts, List.ofFn_succ]

/-- The writes and the reserved bytes are the parts before the members, -/
theorem perm_fieldWrites (c : Config) :
    (c.fieldWrites ++ [(121, (zeros 7).val)]).Perm (placed 0 c.front) := by
  simp [fieldWrites, front, List.finRange_succ]

/-- and the parts of a member. -/
theorem perm_memberWrites (m : Member) (o : ℕ) :
    (memberWrites m o ++ [(o + 98, (zeros 6).val)]).Perm (placed o (memberParts m)) := by
  simp [memberWrites, memberParts, Nat.add_assoc]

/-- **The writes of a configuration** leave its encoding. -/
theorem fill_writes (c : Config) :
    fill (List.replicate configBytes 0) c.writes = some c.encode := by
  rw [encode_eq]
  apply fill_table c.perm_fieldWrites
  · intro i
    rw [length_front]
    exact perm_memberWrites _ _
  · intro i
    rw [flatten_memberParts, length_encodeMember]
  · exact List.forall_mem_singleton.mpr (zeros_blank 7)
  · intro i
    exact List.forall_mem_singleton.mpr (zeros_blank 6)
  · rw [length_front]
    rfl

end Config

namespace State

/-- Source: `State::encode`, up to the loop -/
def fieldWrites (self : State) : List (ℕ × Bytes) :=
  [(0, { self.config with initialFuel := self.fuelLimit }.encode), (1792, toLe self.received),
    (1808, toLe self.paid), (1824, toLe self.claimNonce), (1832, toLe self.proposalNonce),
    (1840, [if self.paused then 1 else 0]), (1848, toLe self.proposal.nonce),
    (1856, [self.proposal.action]), (1857, [self.proposal.votes]),
    (1864, toLe self.proposal.value), (1880, toLe self.proposal.created),
    (1884, toLe self.proposal.ready), (1888, toLe self.proposal.expires)]

/-- Source: `State::encode`, `for (i, m) in self.members.iter().enumerate()` -/
def memberWrites (m : MemberState) (o : ℕ) : List (ℕ × Bytes) :=
  [(o + 0, toLe m.claimable), (o + 16, toLe m.paid), (o + 32, toLe m.pending),
    (o + 48, toLe m.nonce), (o + 56, toLe m.afterLt), (o + 64, toLe m.lastCallbackLt),
    (o + 72, m.lastCallbackHash.val)]

/-- The writes into the buffer of zeros. Source: `State::encode` -/
def writes (self : State) : List (ℕ × Bytes) :=
  self.fieldWrites ++ (List.finRange maxMembers).flatMap fun i =>
    memberWrites (self.members i) (memberStateBase + i.val * memberStateBytes)

/-- The parts in front of the table of accounts. -/
def front (s : State) : List Bytes :=
  [{ s.config with initialFuel := s.fuelLimit }.encode, toLe s.received, toLe s.paid,
    toLe s.claimNonce, toLe s.proposalNonce, [if s.paused then 1 else 0], (zeros 7).val,
    toLe s.proposal.nonce, [s.proposal.action], [s.proposal.votes], (zeros 6).val,
    toLe s.proposal.value, toLe s.proposal.created, toLe s.proposal.ready, toLe s.proposal.expires,
    (zeros 4).val]

/-- The length of what stands before the members. -/
@[simp] theorem length_front (s : State) : s.front.flatten.length = 1896 := by
  simp [front]

/-- The parts of a row of the table of accounts. -/
def memberParts (m : MemberState) : List Bytes :=
  [toLe m.claimable, toLe m.paid, toLe m.pending, toLe m.nonce, toLe m.afterLt,
    toLe m.lastCallbackLt, m.lastCallbackHash.val]

/-- The encoding is the front and the table. -/
theorem encode_eq (s : State) : s.encode =
    s.front.flatten ++ (List.ofFn fun i => (memberParts (s.members i)).flatten).flatten := by
  simp [encode, front, memberParts, encodeProposal, encodeMember]

/-- The reserved bytes in front of the table of accounts. -/
def reserved : List (ℕ × Bytes) :=
  [(1841, (zeros 7).val), (1858, (zeros 6).val), (1892, (zeros 4).val)]

/-- The writes and the reserved bytes are the parts before the members, -/
theorem perm_fieldWrites (s : State) :
    (s.fieldWrites ++ reserved).Perm (placed 0 s.front) := by
  rw [List.perm_iff_count]
  intro w
  simp only [fieldWrites, reserved, front, placed_cons, placed_nil, Config.length_encode, configBytes,
    length_toLe, length_bytesN, List.length_singleton, Nat.reduceAdd, Nat.reduceDiv,
    List.count_append, List.count_cons, List.count_nil]
  omega

/-- and the parts of a member. -/
theorem perm_memberWrites (m : MemberState) (o : ℕ) :
    (memberWrites m o ++ []).Perm (placed o (memberParts m)) := by
  simp [memberWrites, memberParts, Nat.add_assoc]

/-- **The writes of a state** leave its encoding. -/
theorem fill_writes (s : State) : fill (List.replicate stateBytes 0) s.writes = some s.encode := by
  rw [encode_eq]
  apply fill_table s.perm_fieldWrites
  · intro i
    rw [length_front]
    exact perm_memberWrites _ _
  · intro i
    exact length_encodeMember _
  · simp only [reserved, List.forall_mem_cons]
    exact ⟨zeros_blank 7, zeros_blank 6, zeros_blank 4, nofun⟩
  · exact fun _ _ => nofun
  · rw [length_front]
    rfl

end State

/-! ## Round trips -/

section

variable [Target]

/-- What is decoded was the encoding. -/
theorem State.encode_of_decode {b : Bytes} {s : State} (h : State.decode b = .ok s) :
    s.encode = b :=
  (State.decode_ok_iff.mp h).1

/-- A valid state is decoded from its encoding, with the fuel limit for the initial fuel. -/
theorem State.decode_encode {s : State} (h : s.Valid) : State.decode s.encode =
    .ok { s with config := { s.config with initialFuel := s.fuelLimit } } := by
  have hconfig : ({ s.config with initialFuel := s.fuelLimit } : Config).Valid :=
    h.config.withInitialFuel h.fuelLimit_ne_zero
  rw [State.decode_ok_iff]
  refine ⟨rfl, ⟨hconfig, h.fuelLimit_ne_zero, fun i hi => ?_, h.idle, h.paid, h.noProposal,
    fun hp => ?_⟩, rfl⟩
  · -- the initial fuel is no part of the rules of an account
    have hm := h.members i hi
    exact ⟨hm.balance, hm.free, hm.locked, hm.callback⟩
  · have hproposal := h.proposal hp
    exact ⟨hproposal.nonce_eq, hproposal.votes_ne_zero, hproposal.votes_known, hproposal.proposes,
      hproposal.ready_eq, hproposal.expires_eq⟩

/-- A valid configuration is decoded from its encoding. -/
theorem Config.decode_encode {c : Config} (h : c.Valid) : Config.decode c.encode = .ok c :=
  Config.decode_ok_iff.mpr ⟨rfl, h⟩

/-- **The codec of the vault.** What the decoders accept is what the encoders write; a valid state is
read back with the fuel limit in the place of the initial fuel, a valid configuration exactly. -/
theorem vault_codec :
    (∀ (b : Bytes) (s : State), State.decode b = .ok s → s.encode = b) ∧
    (∀ s : State, s.validate = .ok () →
      State.decode s.encode =
        .ok { s with config := { s.config with initialFuel := s.fuelLimit } } ∧
      s.encode.length = 3560) ∧
    (∀ (b : Bytes) (c : Config), Config.decode b = .ok c → c.encode = b) ∧
    (∀ c : Config, c.validate = .ok () → Config.decode c.encode = .ok c ∧ c.encode.length = 1792) ∧
    (∀ (b b' : Bytes) (s : State), State.decode b = .ok s → State.decode b' = .ok s → b = b') ∧
    (∀ s : State, fill (List.replicate 3560 0) s.writes = some s.encode) ∧
    ∀ c : Config, fill (List.replicate 1792 0) c.writes = some c.encode := by
  refine ⟨fun b s => State.encode_of_decode, fun s h => ⟨?_, State.length_encode s⟩, fun b c h => ?_,
    fun c h => ⟨?_, Config.length_encode c⟩, fun b b' s h h' => ?_, State.fill_writes,
    Config.fill_writes⟩
  · exact State.decode_encode (State.validate_ok_iff.mp h)
  · exact (Config.decode_ok_iff.mp h).1
  · exact Config.decode_encode (Config.validate_ok_iff.mp h)
  · rw [← State.encode_of_decode h, ← State.encode_of_decode h']

end

end AvmSdk.Hub
