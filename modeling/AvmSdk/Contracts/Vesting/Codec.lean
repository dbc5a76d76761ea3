import AvmSdk.Contracts.Vesting.Validity
import AvmSdk.Wire.Writes

/-!
# Stored vesting contracts

The encoder of a configuration fills a buffer of zeros, the encoder of a state grows the encoded
configuration to its size and writes behind it. Here are these writes, in the order and at the
offsets of the source.

* `Config.fill_writes`, `State.fill_writes`: no two writes meet, none leaves the buffer, and what
  they leave is the encoding, the fields one after the other with zeros between them.
* `Config.Padded`, `State.Padded`: the bytes that must be zero.
* `vesting_codec`: what is decoded was the encoding, and what is valid is decoded from its encoding.
-/

namespace AvmSdk.Vesting

open Wire Sdk Contracts

namespace Config

/-- Source: `Config::encode`, up to the loop -/
def fieldWrites (self : Config) : List (ℕ × Bytes) :=
  [(0, self.owner.val), (32, toLe self.fuel), (48, [self.count])]

/-- Source: `Config::encode`, `for (i, s) in self.streams.iter().enumerate()` -/
def streamWrites (s : Stream) (o : ℕ) : List (ℕ × Bytes) :=
  [(o, s.key.val), (o + 32, s.payout.dappId.val), (o + 64, s.payout.accountId.val),
    (o + 96, s.refund.dappId.val), (o + 128, s.refund.accountId.val), (o + 160, toLe s.total),
    (o + 176, toLe s.start), (o + 180, toLe s.cliff), (o + 184, toLe s.endTime),
    (o + 188, toLe s.step), (o + 192, [if s.revocable then 1 else 0])]

/-- The writes into the buffer of zeros. Source: `Config::encode` -/
def writes (self : Config) : List (ℕ × Bytes) :=
  self.fieldWrites ++ (List.finRange maxStreams).flatMap fun i =>
    streamWrites (self.streams i) (56 + i.val * rowBytes)

/-- The parts in front of the table of streams. -/
def front (c : Config) : List Bytes := [c.owner.val, toLe c.fuel, [c.count], (zeros 7).val]

/-- The length of what stands before the streams. -/
@[simp] theorem length_front (c : Config) : c.front.flatten.length = 56 := by
  simp [front]

/-- The parts of a row of the table of streams. -/
def streamParts (s : Stream) : List Bytes :=
  [s.key.val, s.payout.dappId.val, s.payout.accountId.val, s.refund.dappId.val,
    s.refund.accountId.val, toLe s.total, toLe s.start, toLe s.cliff, toLe s.endTime, toLe s.step,
    [if s.revocable then 1 else 0], (zeros 7).val]

/-- The parts of a stream make up its encoding. -/
theorem flatten_streamParts (s : Stream) : (streamParts s).flatten = encodeStream s := by
  simp [streamParts, encodeStream, AccountAddress.toBytes]

/-- The encoding is the front and the table. -/
theorem encode_eq (c : Config) : c.encode =
    c.front.flatten ++ (List.ofFn fun i => (streamParts (c.streams i)).flatten).flatten := by
  simp [encode, front, flatten_streamParts]

/-- The writes and the reserved bytes are the parts before the streams, -/
theorem perm_fieldWrites (c : Config) :
    (c.fieldWrites ++ [(49, (zeros 7).val)]).Perm (placed 0 c.front) := by
  simp [fieldWrites, front]

/-- and the parts of a stream. -/
theorem perm_streamWrites (s : Stream) (o : ℕ) :
    (streamWrites s o ++ [(o + 193, (zeros 7).val)]).Perm (placed o (streamParts s)) := by
  simp [streamWrites, streamParts, Nat.add_assoc]

/-- **The writes of a configuration** leave its encoding. -/
theorem fill_writes (c : Config) :
    fill (List.replicate configBytes 0) c.writes = some c.encode := by
  rw [encode_eq]
  apply fill_table c.perm_fieldWrites
  · intro i
    rw [length_front]
    exact perm_streamWrites _ _
  · intro i
    rw [flatten_streamParts, length_encodeStream]
  · exact List.forall_mem_singleton.mpr (zeros_blank 7)
  · intro i
    exact List.forall_mem_singleton.mpr (zeros_blank 7)
  · rw [length_front]
    rfl

end Config

namespace State

/-- The encoded configuration, grown to the size of a state.
Source: `State::encode`, `b.resize(STATE_BYTES, 0)` -/
def buffer (self : State) : Bytes :=
  self.config.encode ++ List.replicate (stateBytes - self.config.encode.length) 0

/-- Source: `State::encode`, up to the loop -/
def fieldWrites (self : State) : List (ℕ × Bytes) :=
  [(configBytes, [if self.funded then 1 else 0]), (1660, toLe self.lastTime),
    (1664, toLe self.nonce)]

/-- Source: `State::encode`, `for (kind, l) in p.lanes.iter().enumerate()` -/
def laneWrites (l : Lane) (a : ℕ) : List (ℕ × Bytes) :=
  [(a, toLe l.pending), (a + 16, toLe l.nonce), (a + 24, toLe l.afterLt), (a + 32, toLe l.lastLt),
    (a + 40, l.lastHash.val)]

/-- Source: `State::encode`, `for (i, p) in self.progress.iter().enumerate()` -/
def progressWrites (p : Progress) (o : ℕ) : List (ℕ × Bytes) :=
  [(o, [if p.cancelled then 1 else 0]), (o + 4, toLe p.cutoff), (o + 8, toLe p.cap),
    (o + 24, toLe p.claimed), (o + 40, toLe p.refunded)] ++
    (List.finRange 2).flatMap fun kind => laneWrites (p.lanes kind) (o + 56 + kind.val * 72)

/-- The writes into the grown buffer. Source: `State::encode` -/
def writes (self : State) : List (ℕ × Bytes) :=
  self.fieldWrites ++ (List.finRange maxStreams).flatMap fun i =>
    progressWrites (self.progress i) (stateBase + i.val * rowBytes)

/-- The parts in front of the table of progress. -/
def front (s : State) : List Bytes :=
  [s.config.encode, [if s.funded then 1 else 0], (zeros 3).val, toLe s.lastTime, toLe s.nonce]

/-- The length of what stands before the rows of progress. -/
@[simp] theorem length_front (s : State) : s.front.flatten.length = 1672 := by
  simp [front]

/-- The parts of a lane. -/
def laneParts (l : Lane) : List Bytes :=
  [toLe l.pending, toLe l.nonce, toLe l.afterLt, toLe l.lastLt, l.lastHash.val]

/-- The parts of a row of the table of progress. -/
def progressParts (p : Progress) : List Bytes :=
  [[if p.cancelled then 1 else 0], (zeros 3).val, toLe p.cutoff, toLe p.cap, toLe p.claimed,
    toLe p.refunded] ++ (laneParts (p.lanes 0) ++ laneParts (p.lanes 1))

/-- The parts of a row make up its encoding. -/
theorem flatten_progressParts (p : Progress) : (progressParts p).flatten = encodeProgress p := by
  simp [progressParts, laneParts, encodeProgress, encodeLane]

/-- The encoding is the front and the table. -/
theorem encode_eq (s : State) : s.encode =
    s.front.flatten ++ (List.ofFn fun i => (progressParts (s.progress i)).flatten).flatten := by
  simp [encode, front, flatten_progressParts]

/-- The writes and the reserved bytes are the parts before the rows, -/
theorem perm_fieldWrites (s : State) :
    ((0, s.config.encode) :: s.fieldWrites ++ [(1657, (zeros 3).val)]).Perm (placed 0 s.front) := by
  rw [List.perm_iff_count]
  intro w
  simp only [fieldWrites, front, placed_cons, placed_nil, Config.length_encode, configBytes,
    length_toLe, length_bytesN, List.length_singleton, Nat.reduceAdd, Nat.reduceDiv,
    List.count_append, List.count_cons, List.count_nil]
  omega

/-- and the parts of a row. -/
theorem perm_progressWrites (p : Progress) (o : ℕ) :
    (progressWrites p o ++ [(o + 1, (zeros 3).val)]).Perm (placed o (progressParts p)) := by
  have hlanes (f : Fin 2 → List (ℕ × Bytes)) : (List.finRange 2).flatMap f = f 0 ++ f 1 := by
    simp [List.finRange_succ]
  rw [List.perm_iff_count]
  intro w
  simp only [progressWrites, laneWrites, hlanes, progressParts, laneParts, List.cons_append,
    List.nil_append, placed_cons, placed_nil, length_toLe, length_bytesN, List.length_singleton,
    Fin.val_zero, Fin.val_one, Nat.zero_mul, Nat.one_mul, Nat.add_zero, Nat.add_assoc,
    Nat.reduceAdd, Nat.reduceDiv, List.count_cons, List.count_nil]
  omega

/-- **The writes of a state** leave its encoding. -/
theorem fill_writes (s : State) : fill s.buffer s.writes = some s.encode := by
  have hsize : s.config.encode.length ≤ stateBytes := by
    rw [Config.length_encode]
    decide
  unfold buffer
  rw [fill_resized hsize, encode_eq]
  apply fill_table s.perm_fieldWrites
  · intro i
    rw [length_front]
    exact perm_progressWrites _ _
  · intro i
    rw [flatten_progressParts, length_encodeProgress]
  · exact List.forall_mem_singleton.mpr (zeros_blank 3)
  · intro i
    exact List.forall_mem_singleton.mpr (zeros_blank 3)
  · rw [length_front]
    rfl

end State

/-! ## Bytes that must be zero -/

/-- The reserved bytes of a stored configuration and its rows behind the count are zero. -/
structure Config.Padded (b : Bytes) : Prop where
  count : b.extract 49 56 = (zeros 7).val
  revocable : ∀ i : Fin maxStreams,
    b.extract (56 + i * 200 + 193) (56 + i * 200 + 200) = (zeros 7).val
  idle : ∀ i : Fin maxStreams, (b.getD 48 0).toNat ≤ i.val →
    b.extract (56 + i * 200) (56 + i * 200 + 200) = (zeros 200).val

/-- The reserved bytes of a stored state and its rows behind the count are zero. -/
structure State.Padded (b : Bytes) : Prop where
  config : Config.Padded b
  funded : b.extract 1657 1660 = (zeros 3).val
  cancelled : ∀ i : Fin maxStreams,
    b.extract (1672 + i * 200 + 1) (1672 + i * 200 + 4) = (zeros 3).val
  idle : ∀ i : Fin maxStreams, (b.getD 48 0).toNat ≤ i.val →
    b.extract (1672 + i * 200) (1672 + i * 200 + 200) = (zeros 200).val

set_option maxRecDepth 2000 in
/-- The row of a stream that is not there. -/
theorem Config.encodeStream_default : encodeStream Stream.default = (zeros 200).val := rfl

set_option maxRecDepth 2000 in
/-- The row of the progress of such a stream. -/
theorem State.encodeProgress_default : encodeProgress Progress.default = (zeros 200).val :=
  rfl

/-- An encoded valid configuration is padded. -/
theorem Config.Valid.padded {c : Config} (h : c.Valid) : Config.Padded c.encode := by
  have hlen := Config.length_encode c
  have hrow (i : Fin maxStreams) : 56 + i.val * 200 + 200 ≤ c.encode.length := by
    have hi := i.isLt
    rw [hlen]
    unfold configBytes maxStreams at *
    omega
  obtain ⟨-, -, hcount, hreserved, hstreams⟩ := (Config.encode_eq_iff hlen).mp rfl
  refine ⟨hreserved.symm, fun i => ?_, fun i hi => ?_⟩
  · have hparts := (Config.encodeStream_eq_extract_iff (hrow i)).mp (hstreams i)
    exact hparts.2.2.2.2.2.2.2.2.2.symm
  · rw [← hcount] at hi
    rw [← hstreams i, h.idle i (Nat.not_lt.mpr hi)]
    exact Config.encodeStream_default

/-- What stands behind a padded configuration does not matter. -/
theorem Config.Padded.of_front {b : Bytes} (h : Config.Padded (b.extract 0 configBytes)) :
    Config.Padded b := by
  have hrow (i : Fin maxStreams) : 56 + i.val * 200 + 200 ≤ configBytes := by
    have hi := i.isLt
    unfold configBytes maxStreams at *
    omega
  refine ⟨?_, fun i => ?_, fun i hi => ?_⟩
  · rw [← h.count, extract_extract (by decide)]
  · rw [← h.revocable i, extract_extract (hrow i)]
  · have hcount : (b.extract 0 configBytes).getD 48 0 = b.getD (0 + 48) 0 :=
      getD_extract (by decide)
    rw [← Nat.zero_add 48, ← hcount] at hi
    rw [← h.idle i hi, extract_extract (hrow i)]

/-- An encoded valid state is padded. -/
theorem State.Valid.padded {s : State} (h : s.Valid) : State.Padded s.encode := by
  have hlen := State.length_encode s
  have hrow (i : Fin maxStreams) : 1672 + i.val * 200 + 200 ≤ s.encode.length := by
    have hi := i.isLt
    rw [hlen]
    unfold stateBytes maxStreams at *
    omega
  obtain ⟨hconfig, -, hreserved, -, -, hprogress⟩ := (State.encode_eq_iff hlen).mp rfl
  have hpadded : Config.Padded s.encode := by
    apply Config.Padded.of_front
    rw [← hconfig]
    exact h.config.padded
  refine ⟨hpadded, hreserved.symm, fun i => ?_, fun i hi => ?_⟩
  · have hparts := (State.encodeProgress_eq_extract_iff (hrow i)).mp (hprogress i)
    exact hparts.2.1.symm
  · have hcount : s.config.count = s.encode.getD 48 0 := by
      have hparts := (Config.encode_eq_iff (Config.length_encode s.config)).mp rfl
      have hfront : (s.encode.extract 0 1656).getD 48 0 = s.encode.getD (0 + 48) 0 :=
        getD_extract (by decide)
      rw [hparts.2.2.1, hconfig, hfront]
    rw [← hcount] at hi
    rw [← hprogress i, h.idle i (Nat.not_lt.mpr hi)]
    exact State.encodeProgress_default

/-! ## Round trips -/

section

variable [Target]

/-- What is decoded was the encoding. -/
theorem State.encode_of_decode {b : Bytes} {s : State} (h : State.decode b = .ok s) :
    s.encode = b :=
  (State.decode_ok_iff.mp h).1

/-- **The codec of the vesting contract.** What the decoders accept is what the encoders write, and
what is valid is read back from there; reserved bytes and idle rows are zero. -/
theorem vesting_codec :
    (∀ (b : Bytes) (s : State), State.decode b = .ok s → s.encode = b) ∧
    (∀ s : State, s.validate = .ok () →
      s.encode.length = 3272 ∧ State.decode s.encode = .ok s) ∧
    (∀ (b : Bytes) (c : Config), Config.decode b = .ok c → c.encode = b) ∧
    (∀ c : Config, c.validate = .ok () →
      c.encode.length = 1656 ∧ Config.decode c.encode = .ok c) ∧
    (∀ (b b' : Bytes) (s : State), State.decode b = .ok s → State.decode b' = .ok s → b = b') ∧
    (∀ (b : Bytes) (s : State), State.decode b = .ok s → State.Padded b) ∧
    (∀ (b : Bytes) (c : Config), Config.decode b = .ok c → Config.Padded b) ∧
    (∀ s : State, fill s.buffer s.writes = some s.encode) ∧
    ∀ c : Config, fill (List.replicate 1656 0) c.writes = some c.encode := by
  refine ⟨fun b s => State.encode_of_decode, fun s h => ⟨State.length_encode s, ?_⟩, fun b c h => ?_,
    fun c h => ⟨Config.length_encode c, ?_⟩, fun b b' s h h' => ?_, fun b s h => ?_, fun b c h => ?_,
    State.fill_writes, Config.fill_writes⟩
  · exact State.decode_ok_iff.mpr ⟨rfl, State.validate_ok_iff.mp h⟩
  · exact (Config.decode_ok_iff.mp h).1
  · exact Config.decode_ok_iff.mpr ⟨rfl, Config.validate_ok_iff.mp h⟩
  · rw [← State.encode_of_decode h, ← State.encode_of_decode h']
  · obtain ⟨rfl, hvalid⟩ := State.decode_ok_iff.mp h
    exact hvalid.padded
  · obtain ⟨rfl, hvalid⟩ := Config.decode_ok_iff.mp h
    exact hvalid.padded

end

end AvmSdk.Vesting
