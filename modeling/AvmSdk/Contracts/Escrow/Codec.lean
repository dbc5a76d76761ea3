import AvmSdk.Contracts.Escrow.Deployment
import AvmSdk.Wire.Writes

/-!
# Stored escrows

The encoders fill a buffer of zeros, not always in ascending order, and the list of receipts takes as
many slots as it is long. Here are these writes, in the order and at the offsets of the source.

* `Config.fill_writes`, `State.fill_writes`: no two writes meet, and what they leave is the encoding,
  the fields one after the other with zeros between and behind them. All writes are inside the
  buffer if there are at most `maxAttempts` receipts.
* `escrow_codec`: what is decoded was the encoding, and what is valid is decoded from its encoding.
-/

namespace AvmSdk.Escrow

open Wire Sdk Contracts

namespace Config

/-- The writes into the buffer of zeros. Source: `Config::encode` -/
def writes (self : Config) : List (ℕ × Bytes) :=
  [(0, self.owner.val), (32, self.worker.val), (64, self.refundTo.dappId.val),
    (96, self.refundTo.accountId.val), (128, self.payTo.dappId.val),
    (160, self.payTo.accountId.val), (192, toLe self.total), (208, toLe self.deadline),
    (212, [self.count])] ++
    ((List.finRange maxMilestones).map fun i : Fin maxMilestones =>
      (216 + i.val * 16, toLe (self.amounts i))) ++
    [(344, toLe self.fuelReserve)]

/-- The parts of an encoding. -/
def parts (c : Config) : List Bytes :=
  [c.owner.val, c.worker.val, c.refundTo.dappId.val, c.refundTo.accountId.val, c.payTo.dappId.val,
    c.payTo.accountId.val, toLe c.total, toLe c.deadline, [c.count], (zeros 3).val] ++
    (((List.finRange maxMilestones).map fun i => toLe (c.amounts i)) ++ [toLe c.fuelReserve])

/-- The parts of a configuration make up its encoding, -/
theorem flatten_parts (c : Config) : c.parts.flatten = c.encode := by
  unfold parts encode
  rw [List.ofFn_eq_map]
  simp only [List.flatten_append, List.flatten_cons, List.flatten_nil, AccountAddress.toBytes,
    List.append_assoc, List.append_nil]

/-- and the writes and the reserved bytes are those parts. -/
theorem perm_writes (c : Config) :
    (c.writes ++ [(213, (zeros 3).val)]).Perm (placed 0 c.parts) := by
  have hwidth (i : Fin maxMilestones) : (toLe (c.amounts i)).length = 16 := length_toLe _
  have hamounts : ((List.finRange maxMilestones).map fun i => toLe (c.amounts i)).flatten.length =
      128 := length_flatten_rows hwidth
  rw [List.perm_iff_count]
  intro w
  simp only [writes, parts, List.cons_append, List.nil_append, placed_cons, placed_nil,
    placed_append, placed_column hwidth, hamounts, length_toLe, length_bytesN,
    List.length_singleton, Nat.reduceAdd, Nat.reduceDiv, List.count_append, List.count_cons,
    List.count_nil]
  omega

/-- **The writes of a configuration** leave its encoding. -/
theorem fill_writes (c : Config) :
    fill (List.replicate configBytes 0) c.writes = some c.encode := by
  have hlen : configBytes = c.parts.flatten.length := by
    rw [flatten_parts, length_encode]
  rw [← flatten_parts]
  apply fill_blank c.perm_writes ?_ hlen
  exact List.forall_mem_singleton.mpr (zeros_blank 3)

end Config

namespace State

/-- The writes into the buffer of zeros. Source: `State::encode` -/
def writes (self : State) : List (ℕ × Bytes) :=
  [(0, self.config.encode), (360, toLe self.funded), (376, toLe self.paid),
    (392, toLe self.refunded), (424, toLe self.pending.amount), (408, toLe self.attempts),
    (416, [self.pending.kind]), (417, [self.pending.index]), (440, toLe self.pending.attempt),
    (448, List.ofFn self.phases)] ++
    ((List.finRange maxMilestones).map fun i : Fin maxMilestones =>
      (456 + i.val * 32, (self.deliveryHashes i).val)) ++
    (712, toLe (BitVec.ofNat 64 self.receipts.length)) ::
    self.receipts.zipIdx.map fun p => (720 + p.2 * 32, p.1.val)

/-- The slots behind the receipts. -/
def room (s : State) : Bytes := List.replicate ((maxAttempts - s.receipts.length) * 32) 0

/-- The parts of an encoding. -/
def parts (s : State) : List Bytes :=
  [s.config.encode, toLe s.funded, toLe s.paid, toLe s.refunded, toLe s.attempts, [s.pending.kind],
    [s.pending.index], (zeros 6).val, toLe s.pending.amount, toLe s.pending.attempt,
    List.ofFn s.phases] ++
    (((List.finRange maxMilestones).map fun i => (s.deliveryHashes i).val) ++
      (toLe (BitVec.ofNat 64 s.receipts.length) :: (s.receipts.map Subtype.val ++ [s.room])))

/-- The slots of the receipts: the receipts, and zeros behind them. -/
theorem ofFn_receiptSlot {receipts : List Bytes32} (h : receipts.length ≤ maxAttempts) :
    List.ofFn (receiptSlot receipts) =
      receipts ++ List.replicate (maxAttempts - receipts.length) (zeros 32) := by
  apply List.ext_getElem
  · rw [List.length_ofFn, List.length_append, List.length_replicate]
    omega
  · intro i hi hi'
    rw [List.getElem_ofFn, receiptSlot, List.getD_eq_getElem?_getD]
    by_cases hlt : i < receipts.length
    · rw [List.getElem?_eq_getElem hlt, Option.getD_some, List.getElem_append_left hlt]
    · rw [List.getElem?_eq_none (Nat.not_lt.mp hlt), Option.getD_none,
        List.getElem_append_right (Nat.not_lt.mp hlt), List.getElem_replicate]

/-- The slots of the receipts, and the room after them. -/
theorem flatten_receiptSlots {s : State} (h : s.receipts.length ≤ maxAttempts) :
    (List.ofFn fun i => (receiptSlot s.receipts i).val).flatten =
      (s.receipts.map Subtype.val).flatten ++ s.room := by
  have hslots : (List.ofFn fun i => (receiptSlot s.receipts i).val) =
      (List.ofFn (receiptSlot s.receipts)).map Subtype.val := by
    rw [List.map_ofFn]
    rfl
  have hzeros : (zeros 32).val = List.replicate 32 0 := zeros_blank 32
  rw [hslots, ofFn_receiptSlot h, List.map_append, List.flatten_append, List.map_replicate, hzeros,
    List.flatten_replicate_replicate]
  rfl

/-- The parts of a state make up its encoding. -/
theorem flatten_parts {s : State} (h : s.receipts.length ≤ maxAttempts) :
    s.parts.flatten = s.encode := by
  have hphases : (List.ofFn fun i => [s.phases i]).flatten = List.ofFn s.phases := by
    rw [List.ofFn_eq_map, List.ofFn_eq_map, ← List.flatMap_def, List.map_eq_flatMap]
  unfold parts encode
  rw [flatten_receiptSlots h, hphases]
  simp only [List.ofFn_eq_map, List.flatten_append, List.flatten_cons, List.flatten_nil,
    List.append_assoc,
    List.append_nil]

/-- The reserved bytes and the slots that are not written. -/
def reserved (s : State) : List (ℕ × Bytes) :=
  [(418, (zeros 6).val), (720 + s.receipts.length * 32, s.room)]

/-- The writes and the reserved bytes are the parts of a state. -/
theorem perm_writes (s : State) : (s.writes ++ s.reserved).Perm (placed 0 s.parts) := by
  have hhash (i : Fin maxMilestones) : (s.deliveryHashes i).val.length = 32 := length_bytesN _
  have hhashes : ((List.finRange maxMilestones).map fun i =>
      (s.deliveryHashes i).val).flatten.length = 256 := length_flatten_rows hhash
  have hphases : (List.ofFn s.phases).length = 8 := List.length_ofFn
  have hreceipt (h : Bytes32) : h.val.length = 32 := length_bytesN h
  have hplaced : placed 720 (s.receipts.map Subtype.val) =
      s.receipts.zipIdx.map fun p => (720 + p.2 * 32, p.1.val) := by
    have hzero : 720 + 0 * 32 = 720 := rfl
    rw [← placed_zipIdx hreceipt, hzero]
  have hreceipts : (s.receipts.map Subtype.val).flatten.length = s.receipts.length * 32 := by
    have hconst : s.receipts.map (List.length ∘ Subtype.val) = s.receipts.map fun _ => 32 :=
      List.map_congr_left fun h _ => hreceipt h
    rw [List.length_flatten, List.map_map, hconst, List.map_const', List.sum_replicate,
      smul_eq_mul]
  rw [List.perm_iff_count]
  intro w
  simp only [writes, reserved, parts, List.cons_append, List.nil_append, placed_cons, placed_nil,
    placed_append, placed_column hhash, hplaced, hhashes, hphases, hreceipts, length_toLe,
    length_bytesN, Config.length_encode, configBytes, List.length_singleton, Nat.reduceAdd,
    Nat.reduceDiv, List.count_append, List.count_cons, List.count_nil]
  omega

/-- **The writes of a state** leave its encoding. -/
theorem fill_writes {s : State} (h : s.receipts.length ≤ maxAttempts) :
    fill (List.replicate stateBytes 0) s.writes = some s.encode := by
  have hlen : stateBytes = s.parts.flatten.length := by
    rw [flatten_parts h, length_encode]
  rw [← flatten_parts h]
  apply fill_blank s.perm_writes ?_ hlen
  simp only [reserved, List.forall_mem_cons]
  refine ⟨zeros_blank 6, ?_, nofun⟩
  rw [room, List.length_replicate]

end State

/-! ## Round trips -/

/-- The encoding determines a configuration. -/
theorem Config.encode_injective : Function.Injective Config.encode := by
  intro c c' h
  have hlen := Config.length_encode c'
  obtain ⟨h1, h2, h3, h4, h5, h6, h7, -, h8, h9⟩ := (Config.encode_eq_iff hlen).mp h
  obtain ⟨h1', h2', h3', h4', h5', h6', h7', -, h8', h9'⟩ := (Config.encode_eq_iff hlen).mp rfl
  cases c
  cases c'
  congr
  · exact Subtype.ext (h1.trans h1'.symm)
  · exact Subtype.ext (h2.trans h2'.symm)
  · exact AccountAddress.toBytes_injective (h3.trans h3'.symm)
  · exact AccountAddress.toBytes_injective (h4.trans h4'.symm)
  · exact toLe_inj (by decide) (h5.trans h5'.symm)
  · exact toLe_inj (by decide) (h6.trans h6'.symm)
  · exact h7.trans h7'.symm
  · funext i
    exact toLe_inj (by decide) ((h8 i).trans (h8' i).symm)
  · exact toLe_inj (by decide) (h9.trans h9'.symm)

section

variable [Target]

/-- A configuration that some decoder run accepts is valid, and is decoded from its encoding. -/
theorem Config.decode_encode {c c' : Config} (h : Config.decode c.encode = .ok c') :
    c.Valid ∧ Config.decode c.encode = .ok c := by
  obtain ⟨hencode, hvalid⟩ := Config.decode_ok_iff.mp h
  rw [← Config.encode_injective hencode]
  exact ⟨hvalid, Config.decode_ok_iff.mpr ⟨rfl, hvalid⟩⟩

/-- What is decoded was the encoding. -/
theorem State.encode_of_decode {b : Bytes} {s : State} (h : State.decode b = .ok s) :
    s.encode = b :=
  (State.decode_ok_iff.mp h).1

/-- **The codec of the escrow.** What the decoders accept is what the encoders write, and what is
valid is read back from there; all writes are inside the buffer. -/
theorem escrow_codec :
    (∀ (b : Bytes) (s : State), State.decode b = .ok s → s.encode = b) ∧
    (∀ (s : State) (c : Config), Config.decode s.config.encode = .ok c → s.validate = .ok () →
      s.receipts.length ≤ 64 → s.encode.length = 2768 ∧
        fill (List.replicate 2768 0) s.writes = some s.encode ∧ State.decode s.encode = .ok s) ∧
    (∀ (b : Bytes) (c : Config), Config.decode b = .ok c → c.encode = b) ∧
    (∀ c c' : Config, Config.decode c.encode = .ok c' → c.encode.length = 360 ∧
      fill (List.replicate 360 0) c.writes = some c.encode ∧ Config.decode c.encode = .ok c) ∧
    ∀ (b b' : Bytes) (s : State), State.decode b = .ok s → State.decode b' = .ok s → b = b' := by
  refine ⟨fun b s => State.encode_of_decode, fun s c hc h hfew => ?_, fun b c h => ?_,
    fun c c' h => ?_, fun b b' s h h' => ?_⟩
  · have hvalid := (State.validate_ok_iff (Config.decode_encode hc).1).mp h
    exact ⟨State.length_encode s, State.fill_writes hfew, State.decode_ok_iff.mpr ⟨rfl, hvalid⟩⟩
  · exact (Config.decode_ok_iff.mp h).1
  · exact ⟨Config.length_encode c, Config.fill_writes c, (Config.decode_encode h).2⟩
  · rw [← State.encode_of_decode h, ← State.encode_of_decode h']

end

/-- An escrow with a refund under way and two receipts. -/
theorem escrow_codec_sample :
    letI := Target.wasm32
    sampleReturning.receipts.length = 2 ∧ sampleReturning.encode.length = 2768 ∧
      fill (List.replicate 2768 0) sampleReturning.writes = some sampleReturning.encode ∧
      State.decode sampleReturning.encode = .ok sampleReturning ∧
      Config.decode sampleConfig.encode = .ok sampleConfig := by
  let _ := Target.wasm32
  obtain ⟨-, hstate, -, -, -⟩ := escrow_codec
  obtain ⟨-, -, -, -, hvalid⟩ := valid_samples
  have hconfig : Config.decode sampleConfig.encode = .ok sampleConfig :=
    Config.decode_ok_iff.mpr ⟨rfl, sampleConfig_deployable.valid⟩
  have hchecked : sampleReturning.validate = .ok () :=
    (State.validate_ok_iff sampleConfig_deployable.valid).mpr hvalid
  have hreceipts : sampleReturning.receipts.length = 2 := rfl
  obtain ⟨hlength, hwrites, hdecode⟩ := hstate sampleReturning sampleConfig hconfig hchecked
    (hreceipts.trans_le (by decide))
  exact ⟨hreceipts, hlength, hwrites, hdecode, hconfig⟩

end AvmSdk.Escrow
