import AvmSdk.Contracts.Audit.Legacy

/-!
# The compact audit ledger

The contract `revenue-hub/experiments/compact-audit`: states with room for the members that there are,
and the conversions from and to the states of the audit ledger.

* `Compact.layout`, `Compact.format`, `Compact.reads`: its layout, and the form of its states.
* `Compact.auditLedger`: the contract.
* `Compact.compactLegacy_ok_iff`, `Compact.expandLegacy_ok_iff`: the conversions keep the ledger.
* `Compact.migration_lossless`: they are inverse to each other, and defined on all accepted states.
-/

namespace AvmSdk.Audit.Compact

open Wire Sdk Contracts Hub

/-- Source: `HEADER_BYTES` -/
def headerBytes : ℕ := 44

/-- Source: `b"AUC2"` -/
def magic : Bytes := [0x41, 0x55, 0x43, 0x32]

/-- Source: `state_bytes` -/
def stateBytes (count : ℕ) : ℕ := headerBytes + 96 * count

/-- Source: `record_base` -/
def recordBase (b : Bytes) : ℕ := headerBytes + 64 * (b.getD 40 0).toNat

/-- The number of members and the checks in front of the loop. Source: `validate` -/
def header [Target] (b : Bytes) : HubResult ℕ := do
  failIf (b.length < headerBytes ∨ b.extract 4 8 ≠ magic ∨ b.getD 40 0 = 0 ∨ 16 < b.getD 40 0 ∨
    b.extract 41 44 ≠ List.replicate 3 0 ∨ b.extract 8 40 = List.replicate 32 0 ∨
    b.length ≠ stateBytes (b.getD 40 0).toNat) eAuditArgs
  let payload ← wordAt eArgs 32 b 0
  failIf (payload.toNat ≠ b.length - 4) eAuditArgs
  pure (b.getD 40 0).toNat

/-- Source: `record` -/
def record [Target] (b : Bytes) (index : ℕ) : HubResult Record := do
  failIf (b.length < headerBytes ∨ (b.getD 40 0).toNat ≤ index ∨ maxMembers ≤ index) eAuditArgs
  let row ← okOr (getRange b (recordBase b + index * 32) (recordBase b + (index + 1) * 32)) eAuditArgs
  Record.decode row

/-- What the contract does in its own way. -/
def layout [Target] : Layout where
  owner := 8
  bindings := headerBytes
  records := recordBase
  header := header
  record := record

/-- The length of a state without the four bytes that hold it. Source: `payload_len`, `payload` -/
def payloadLen (count : U8) : U32 := BitVec.ofNat 32 (stateBytes count.toNat - 4)

/-- A new state. Source: `initialize` -/
def fresh (owner : Bytes32) (count : U8) : Bytes :=
  patch (patch (patch (patch (List.replicate (stateBytes count.toNat) 0) 0 (toLe (payloadLen count)))
    4 magic) 8 owner.val) 40 [count]

/-- The batches that are refused. Source: `process_batch` -/
def Refused (input : BatchInput) : Prop := maxBatch < input.messageCount.toNat

instance : DecidablePred Refused := fun input => Nat.decLt maxBatch input.messageCount.toNat

/-- **The contract.** Source: `AuditLedger` -/
def auditLedger [Target] : BatchContract where
  init := fun input => orFailure (Layout.initializeLedger fresh input)
  processMessage := fun input => orFailure (layout.isolated input)
  processBatch := layout.batch Refused fun input patches =>
    replacement input.state input.requiredStateOutputMode patches

/-- Source: `compact_legacy` -/
def compactLegacy [Target] (old : Bytes) : HubResult Bytes := do
  failIf (old.length ≠ 65540 ∨ old.extract 0 4 ≠ toLe (65536 : U32) ∨ old.getD 36 0 = 0 ∨
    16 < old.getD 36 0 ∨ old.extract 37 68 ≠ List.replicate 31 0) eAuditArgs
  let n := (old.getD 36 0).toNat
  failIf ((old.extract (68 + 64 * n) 2052).any (· ≠ 0) ∨ (old.drop (2052 + 32 * n)).any (· ≠ 0))
    eAuditArgs
  let b := List.replicate (stateBytes n) 0
  let b := patch b 0 (toLe (BitVec.ofNat 32 (stateBytes n - 4)))
  let b := patch b 4 magic
  let b := patch b 8 (old.extract 4 36)
  let b := patch b 40 [old.getD 36 0]
  let b := patch b 44 (old.extract 68 (68 + 64 * n))
  let b := patch b (44 + 64 * n) (old.extract 2052 (2052 + 32 * n))
  let _ ← layout.validate b
  pure b

/-- Source: `expand_legacy` -/
def expandLegacy [Target] (b : Bytes) : HubResult Bytes := do
  let n ← layout.validate b
  let old := List.replicate 65540 0
  let old := patch old 0 (toLe (65536 : U32))
  let old := patch old 4 (b.extract 8 40)
  let old := patch old 36 [b.getD 40 0]
  let old := patch old 68 (b.extract 44 (44 + 64 * n))
  let old := patch old 2052 (b.drop (44 + 64 * n))
  pure old

/-! ## The form of the states -/

/-- The form of the states. -/
def format : Format where
  head := fun owner count =>
    [toLe (payloadLen count), magic, owner.val, [count], List.replicate 3 0].flatten
  bindings := headerBytes
  gap := fun _ => 0
  tail := fun _ => 0

/-- The lengths of the fields of the head, -/
theorem lengths_head (owner : Bytes32) (count : U8) :
    [toLe (payloadLen count), magic, owner.val, [count], List.replicate 3 0].map List.length =
      [4, 4, 32, 1, 3] := by
  simp [magic]

/-- and that of the head. -/
theorem length_head (owner : Bytes32) (count : U8) :
    (format.head owner count).length = headerBytes :=
  length_flatten_of_lengths (lengths_head owner count)

section

variable {owner : Bytes32} {count : U8} {b : Bytes}

/-- The records start after the bindings. -/
theorem recordsAt_eq (count : U8) : format.recordsAt count = headerBytes + 64 * count.toNat := by
  show headerBytes + count.toNat * 64 + 0 = _
  omega

/-- The size of a state. -/
theorem size_eq (count : U8) : format.size count = stateBytes count.toNat := by
  unfold Format.size stateBytes
  rw [recordsAt_eq]
  show headerBytes + 64 * count.toNat + count.toNat * 32 + 0 = _
  omega

/-- The head of a state, part by part. -/
theorem head_standsAt_iff (hlen : headerBytes ≤ b.length) :
    StandsAt b 0 (format.head owner count) ↔ b.extract 0 4 = toLe (payloadLen count) ∧
      b.extract 4 8 = magic ∧ b.extract 8 40 = owner.val ∧ b.getD 40 0 = count ∧
        b.extract 41 44 = List.replicate 3 0 := by
  unfold headerBytes at hlen
  have hone : b.extract 40 41 = [b.getD 40 0] := extract_one (by omega)
  unfold StandsAt
  rw [length_head, and_iff_right (by unfold headerBytes; omega), Nat.zero_add, eq_comm]
  show [toLe (payloadLen count), magic, owner.val, [count], List.replicate 3 0].flatten =
    b.extract 0 (0 + [4, 4, 32, 1, 3].sum) ↔ _
  rw [flatten_eq_extract_iff (lengths_head owner count) (by simpa using hlen)]
  simp only [splitParts, List.cons.injEq, and_true, Nat.zero_add, Nat.reduceAdd, hone]
  constructor
  · rintro ⟨hpayload, hmagic, howner, hcount, hzero⟩
    exact ⟨hpayload.symm, hmagic.symm, howner.symm, hcount.symm, hzero.symm⟩
  · rintro ⟨hpayload, hmagic, howner, hcount, hzero⟩
    exact ⟨hpayload.symm, hmagic.symm, howner.symm, hcount.symm, hzero.symm⟩

/-- The parts of a head. -/
theorem head_self (owner : Bytes32) (count : U8) :
    (format.head owner count).extract 0 4 = toLe (payloadLen count) ∧
      (format.head owner count).extract 4 8 = magic ∧
      (format.head owner count).extract 8 40 = owner.val ∧
      (format.head owner count).getD 40 0 = count ∧
      (format.head owner count).extract 41 44 = List.replicate 3 0 :=
  (head_standsAt_iff (length_head owner count).ge).mp standsAt_self

/-- No zeros stand anywhere. -/
theorem standsAt_nil {p : ℕ} (hp : p ≤ b.length) :
    StandsAt b p (List.replicate 0 (0 : Byte)) := by
  refine ⟨hp, ?_⟩
  rw [List.extract_eq_take_drop, List.replicate_zero, List.length_nil, Nat.add_zero, Nat.sub_self,
    List.take_zero]

/-- The length that the head gives does not wrap. -/
theorem toNat_payloadLen (h : count.toNat ≤ maxMembers) :
    (payloadLen count).toNat = stateBytes count.toNat - 4 := by
  have hmax : maxMembers = 16 := rfl
  unfold payloadLen
  rw [BitVec.toNat_ofNat, Nat.mod_eq_of_lt]
  unfold stateBytes headerBytes
  omega

/-- The checks of a header. -/
theorem header_ok_iff [Target] {n : ℕ} : header b = .ok n ↔ ∃ owner count, owner ≠ zeros 32 ∧
    count ≠ 0 ∧ count.toNat ≤ maxMembers ∧ count.toNat = n ∧ format.Frames owner count b := by
  have hmax : maxMembers = 16 := rfl
  have hlt {count : U8} (h : count.toNat ≤ maxMembers) : stateBytes count.toNat < 2 ^ 32 := by
    unfold stateBytes headerBytes
    omega
  have hge (n : ℕ) : headerBytes ≤ stateBytes n := Nat.le_add_right ..
  have hpayload (count : U8) (hlen : b.length = stateBytes count.toNat)
      (h : count.toNat ≤ maxMembers) :
      (∃ w : U32, wordAt eArgs 32 b 0 = .ok w ∧ w.toNat = b.length - 4) ↔
        b.extract 0 4 = toLe (payloadLen count) := by
    have hfits : 0 + 32 / 8 ≤ b.length := by
      rw [hlen]
      unfold stateBytes headerBytes
      omega
    have hword (w : U32) : wordAt eArgs 32 b 0 = .ok w ↔ toLe w = b.extract 0 4 :=
      wordAt_ok_iff (hlen ▸ hlt h) (by decide) hfits
    rw [hlen, ← toNat_payloadLen h]
    constructor
    · rintro ⟨w, hw, heq⟩
      rw [← (hword w).mp hw, BitVec.eq_of_toNat_eq heq]
    · intro heq
      exact ⟨payloadLen count, (hword _).mpr heq.symm, rfl⟩
  simp only [header, bind_ok_iff, failIf_ok_iff, pure_ok_iff, exists_const, not_or, not_lt]
  constructor
  · rintro ⟨⟨hlen, hmagic, hcount0, hcount, hzero, howner, hlength⟩, w, hw, hweq, rfl⟩
    rw [Legacy.not_sixteen_lt_iff] at hcount
    rw [not_not] at hmagic hzero hlength hweq
    have hlen44 : headerBytes = 44 := rfl
    have howner_len : (b.extract 8 40).length = 32 := length_extract_of_le (by omega)
    have hlength_eq := (hpayload _ hlength hcount).mp ⟨w, hw, hweq⟩
    refine ⟨⟨b.extract 8 40, howner_len⟩, b.getD 40 0, fun hno => howner (congrArg Subtype.val hno),
      hcount0, hcount, rfl, hlength.trans (size_eq _).symm,
      (head_standsAt_iff hlen).mpr ⟨hlength_eq, hmagic, rfl, rfl, hzero⟩,
      standsAt_nil ?_, standsAt_nil ?_⟩
    · rw [hlength, ← size_eq]
      unfold Format.size Format.recordsAt
      omega
    · rw [hlength, ← size_eq]
      unfold Format.size
      omega
  · rintro ⟨owner, count, howner, hcount0, hcount, rfl, hframes⟩
    have hlength := hframes.length_eq.trans (size_eq count)
    have hlen : headerBytes ≤ b.length := hlength ▸ hge _
    obtain ⟨hlength_eq, hmagic, howner_eq, rfl, hzero⟩ := (head_standsAt_iff hlen).mp hframes.head_at
    obtain ⟨w, hw, hweq⟩ := (hpayload _ hlength hcount).mpr hlength_eq
    refine ⟨⟨hlen, not_not.mpr hmagic, hcount0, Legacy.not_sixteen_lt_iff.mpr hcount,
      not_not.mpr hzero, fun hno => howner (Subtype.ext (howner_eq.symm.trans hno)),
      not_not.mpr hlength⟩, w, hw, not_not.mpr hweq, rfl⟩

end

/-- **The contract reads** states of this form. -/
theorem reads [Target] : layout.Reads format where
  bindings_eq := rfl
  length_head := length_head
  head_inj {owner owner' count count'} h := by
    have hlen := (length_head owner' count').ge
    have hself : StandsAt (format.head owner' count') 0 (format.head owner count) :=
      h ▸ standsAt_self
    obtain ⟨-, -, howner, hcount, -⟩ := (head_standsAt_iff hlen).mp hself
    obtain ⟨-, -, howner', hcount', -⟩ := head_self owner' count'
    exact ⟨Subtype.ext (howner.symm.trans howner'), hcount.symm.trans hcount'⟩
  owner_at owner count := by
    have hlen := length_head owner count
    obtain ⟨-, -, howner, -⟩ := head_self owner count
    refine ⟨?_, ?_⟩
    · rw [length_bytesN, hlen]
      exact (by decide : 8 + 32 ≤ headerBytes)
    · rw [length_bytesN]
      exact howner
  size_lt {count} h := by
    have hmax : maxMembers = 16 := rfl
    rw [size_eq]
    unfold stateBytes headerBytes
    omega
  header_iff := header_ok_iff
  records_eq {owner count b} hb h := by
    have hlen : headerBytes ≤ b.length := by
      rw [hb.length_eq, size_eq]
      exact Nat.le_add_right ..
    obtain ⟨-, -, -, rfl, -⟩ := (head_standsAt_iff hlen).mp hb.head_at
    exact (recordsAt_eq _).symm
  record_eq {owner count b i} hb h hi := by
    have hlen : headerBytes ≤ b.length := by
      rw [hb.length_eq, size_eq]
      exact Nat.le_add_right ..
    obtain ⟨-, -, -, rfl, -⟩ := (head_standsAt_iff hlen).mp hb.head_at
    have hlength := hb.length_eq
    rw [size_eq] at hlength
    have hfits : recordBase b + (i + 1) * 32 ≤ b.length := by
      rw [hlength]
      unfold recordBase stateBytes
      omega
    have hrow : getRange b (recordBase b + i * 32) (recordBase b + (i + 1) * 32) =
        some (b.extract (recordBase b + i * 32) (recordBase b + (i + 1) * 32)) :=
      getRange_eq_some.mpr ⟨⟨by omega, hfits⟩, rfl⟩
    have hmember : ¬ (b.length < headerBytes ∨ (b.getD 40 0).toNat ≤ i ∨ maxMembers ≤ i) := by
      omega
    have hnext : recordBase b + (i + 1) * 32 = recordBase b + i * recordBytes + recordBytes := by
      unfold recordBytes
      omega
    show record b i = _
    unfold record
    rw [hrow, failIf, if_neg hmember, recordsAt_eq, hnext]
    rfl

/-- A new state is that of a new ledger. -/
theorem fresh_eq (owner : Bytes32) (count : U8) :
    fresh owner count = format.encode (Ledger.new owner count) := by
  have hsplit : format.head owner count =
      (((toLe (payloadLen count) ++ magic) ++ owner.val) ++ [count]) ++ List.replicate 3 0 := by
    show [toLe (payloadLen count), magic, owner.val, [count], List.replicate 3 0].flatten = _
    simp
  unfold fresh
  rw [patch_patch (i := 0) ?_ (Nat.zero_le _), patch_patch (i := 0) ?_ (Nat.zero_le _),
    patch_patch (i := 0) ?_ (Nat.zero_le _), ← size_eq]
  · exact Format.patch_zeros_eq length_head hsplit
  · simp [magic]
  · simp [magic]
  · simp

/-! ## Conversions -/

section

variable [Target] {b old : Bytes} {l : Ledger}

omit [Target] in
/-- What `expand_legacy` writes is the state of the ledger. -/
theorem expanded_eq (h : format.Holds l b) (hcount : l.count.toNat ≤ maxMembers) :
    patch (patch (Legacy.fresh l.owner l.count) 68 (b.extract 44 (44 + 64 * l.count.toNat))) 2052
      (b.drop (44 + 64 * l.count.toNat)) = Legacy.format.encode l := by
  have hsources : b.extract 44 (44 + 64 * l.count.toNat) = (Format.sourceRows l).flatten := by
    rw [Nat.mul_comm]
    exact h.extract_sources
  have hrecords : b.drop (44 + 64 * l.count.toNat) = (Format.recordRows l).flatten := by
    have hend : b.length = format.recordsAt l.count + l.count.toNat * recordBytes :=
      h.frames.length_eq
    rw [Legacy.drop_eq_extract, hend, ← h.extract_records, recordsAt_eq]
    rfl
  rw [hsources, hrecords, Legacy.fresh_eq hcount, ← Format.patch_rows Legacy.length_head l,
    Legacy.recordsAt_eq hcount]
  rfl

omit [Target] in
/-- What `compact_legacy` writes is the state of the ledger. -/
theorem compacted_eq (h : Legacy.format.Holds l old) (hcount : l.count.toNat ≤ maxMembers) :
    patch (patch (fresh l.owner l.count) 44 (old.extract 68 (68 + 64 * l.count.toNat)))
      (44 + 64 * l.count.toNat) (old.extract 2052 (2052 + 32 * l.count.toNat)) =
        format.encode l := by
  have hsources : old.extract 68 (68 + 64 * l.count.toNat) = (Format.sourceRows l).flatten := by
    rw [Nat.mul_comm]
    exact h.extract_sources
  have hrecords : old.extract 2052 (2052 + 32 * l.count.toNat) =
      (Format.recordRows l).flatten := by
    rw [Nat.mul_comm, ← h.extract_records, Legacy.recordsAt_eq hcount]
    rfl
  rw [hsources, hrecords, fresh_eq, ← Format.patch_rows length_head l, recordsAt_eq]
  rfl

/-- **The conversion from a compact state** keeps the ledger. -/
theorem expandLegacy_ok_iff : expandLegacy b = .ok old ↔
    ∃ l : Ledger, l.Valid ∧ format.encode l = b ∧ Legacy.format.encode l = old := by
  have hresult {l : Ledger} (hl : l.Valid) (hb : format.encode l = b) :
      patch (patch (patch (patch (patch (List.replicate 65540 0) 0 (toLe (65536 : U32))) 4
        (b.extract 8 40)) 36 [b.getD 40 0]) 68 (b.extract 44 (44 + 64 * l.count.toNat))) 2052
          (b.drop (44 + 64 * l.count.toNat)) = Legacy.format.encode l := by
    have hholds := (Format.encode_eq_iff length_head).mp hb
    have hlen : headerBytes ≤ b.length := by
      rw [hholds.frames.length_eq, size_eq]
      exact Nat.le_add_right ..
    obtain ⟨-, -, howner, hcount, -⟩ := (head_standsAt_iff hlen).mp hholds.frames.head_at
    rw [howner, hcount]
    exact expanded_eq hholds hl.count_le
  simp only [expandLegacy, bind_ok_iff, pure_ok_iff, reads.validate_iff]
  constructor
  · rintro ⟨_, ⟨l, hl, hb, rfl⟩, rfl⟩
    exact ⟨l, hl, hb, (hresult hl hb).symm⟩
  · rintro ⟨l, hl, hb, rfl⟩
    exact ⟨_, ⟨l, hl, hb, rfl⟩, hresult hl hb⟩

/-- **The conversion to a compact state** keeps the ledger. -/
theorem compactLegacy_ok_iff : compactLegacy old = .ok b ↔
    ∃ l : Ledger, l.Valid ∧ Legacy.format.encode l = old ∧ format.encode l = b := by
  have hresult {l : Ledger} (hcount : l.count.toNat ≤ maxMembers) (h : Legacy.format.Holds l old) :
      patch (patch (patch (patch (patch (patch
        (List.replicate (stateBytes (old.getD 36 0).toNat) 0) 0
          (toLe (BitVec.ofNat 32 (stateBytes (old.getD 36 0).toNat - 4)))) 4 magic) 8
          (old.extract 4 36)) 40 [old.getD 36 0]) 44
          (old.extract 68 (68 + 64 * (old.getD 36 0).toNat))) (44 + 64 * (old.getD 36 0).toNat)
          (old.extract 2052 (2052 + 32 * (old.getD 36 0).toNat)) = format.encode l := by
    obtain ⟨-, -, howner, hcount_eq, -⟩ := (Legacy.frames_iff hcount).mp h.frames
    rw [howner, hcount_eq]
    exact compacted_eq h hcount
  simp only [compactLegacy, bind_ok_iff, failIf_ok_iff, pure_ok_iff, exists_const, not_or,
    List.any_eq_true, decide_eq_true_eq]
  constructor
  · rintro ⟨⟨hlen, hlength, hcount0, hcount, hzero⟩, ⟨hnogap, hnotail⟩, n, hvalidate, rfl⟩
    rw [Legacy.not_sixteen_lt_iff] at hcount
    rw [not_not] at hlen hlength hzero
    rw [Nat.mul_comm 64] at hnogap
    rw [Nat.mul_comm 32] at hnotail
    have howner_len : (old.extract 4 36).length = 32 := length_extract_of_le (by omega)
    have hframes : Legacy.format.Frames ⟨old.extract 4 36, howner_len⟩ (old.getD 36 0) old :=
      (Legacy.frames_iff hcount).mpr ⟨hlen, hlength, rfl, rfl, hzero, hnogap, hnotail⟩
    obtain ⟨l, -, hcount_eq, htrimmed, hholds⟩ := hframes.exists_holds hcount
    rw [← hcount_eq] at hcount
    have hbytes := hresult hcount hholds
    rw [hbytes] at hvalidate ⊢
    obtain ⟨l', hl', heq, -⟩ := reads.validate_iff.mp hvalidate
    obtain rfl : l' = l := reads.encode_inj hl'.idle htrimmed heq
    exact ⟨l', hl', (Format.encode_eq_iff Legacy.length_head).mpr hholds, rfl⟩
  · rintro ⟨l, hl, hold, rfl⟩
    have hholds := (Format.encode_eq_iff Legacy.length_head).mp hold
    have hcount := hl.count_le
    have hbytes := hresult hcount hholds
    obtain ⟨hlen, hlength, -, hcount_eq, hzero, hnogap, hnotail⟩ :=
      (Legacy.frames_iff hcount).mp hholds.frames
    rw [Nat.mul_comm] at hnogap hnotail
    rw [hbytes, hcount_eq]
    exact ⟨⟨not_not.mpr hlen, not_not.mpr hlength, hl.count_ne_zero,
      Legacy.not_sixteen_lt_iff.mpr hcount, not_not.mpr hzero⟩, ⟨hnogap, hnotail⟩, _,
      reads.validate_iff.mpr ⟨l, hl, rfl, rfl⟩, rfl⟩

/-- The conversions are inverse to each other. -/
theorem expandLegacy_iff_compactLegacy :
    expandLegacy b = .ok old ↔ compactLegacy old = .ok b := by
  rw [expandLegacy_ok_iff, compactLegacy_ok_iff]
  exact exists_congr fun l => and_congr_right fun _ => and_comm

/-- What can be converted to a compact state is what the audit ledger accepts. -/
theorem exists_compactLegacy_iff :
    (∃ b, compactLegacy old = .ok b) ↔ ∃ n, Legacy.layout.validate old = .ok n := by
  simp only [compactLegacy_ok_iff, Legacy.reads.validate_iff]
  constructor
  · rintro ⟨_, l, hl, hold, -⟩
    exact ⟨_, l, hl, hold, rfl⟩
  · rintro ⟨_, l, hl, hold, -⟩
    exact ⟨_, l, hl, hold, rfl⟩

/-- What can be converted from a compact state is what the compact ledger accepts. -/
theorem exists_expandLegacy_iff :
    (∃ old, expandLegacy b = .ok old) ↔ ∃ n, layout.validate b = .ok n := by
  simp only [expandLegacy_ok_iff, reads.validate_iff]
  constructor
  · rintro ⟨_, l, hl, hb, -⟩
    exact ⟨_, l, hl, hb, rfl⟩
  · rintro ⟨_, l, hl, hb, -⟩
    exact ⟨_, l, hl, hb, rfl⟩

/-- What the two contracts read out of a state and its conversion. -/
structure SameFields (old b : Bytes) (n : ℕ) : Prop where
  legacy : Legacy.layout.validate old = .ok n
  compact : layout.validate b = .ok n
  owner : ∃ owner, arrayAt eArgs 32 old Legacy.layout.owner = .ok owner ∧
    arrayAt eArgs 32 b layout.owner = .ok owner
  source : ∀ i < n, ∃ a, Legacy.layout.sourceAt old i = .ok a ∧ layout.sourceAt b i = .ok a
  record : ∀ i < n, ∃ r, Legacy.record old i = .ok r ∧ record b i = .ok r

/-- The conversion keeps all fields. -/
theorem sameFields_of_compactLegacy (h : compactLegacy old = .ok b) :
    ∃ n, SameFields old b n := by
  obtain ⟨l, hl, rfl, rfl⟩ := compactLegacy_ok_iff.mp h
  have hlegacy := Legacy.reads.lawful
  have hcompact := reads.lawful
  refine ⟨l.count.toNat, Legacy.reads.validate_iff.mpr ⟨l, hl, rfl, rfl⟩,
    reads.validate_iff.mpr ⟨l, hl, rfl, rfl⟩, ⟨l.owner, hlegacy.owner_eq hl, hcompact.owner_eq hl⟩,
    fun i hi => ⟨_, hlegacy.source_eq hl hi, hcompact.source_eq hl hi⟩,
    fun i hi => ⟨_, hlegacy.record_eq hl hi, hcompact.record_eq hl hi⟩⟩

/-- **The migration is lossless.** Each conversion succeeds exactly on what the contract accepts, the
other one leads back, and owner, number of members, sources and records stay the same. -/
theorem migration_lossless :
    (∀ old, ((∃ b, compactLegacy old = .ok b) ↔ ∃ n, Legacy.layout.validate old = .ok n) ∧
      ∀ b, compactLegacy old = .ok b → expandLegacy b = .ok old) ∧
    (∀ b, ((∃ old, expandLegacy b = .ok old) ↔ ∃ n, layout.validate b = .ok n) ∧
      ∀ old, expandLegacy b = .ok old → compactLegacy old = .ok b) ∧
    ∀ old b, compactLegacy old = .ok b → ∃ n, SameFields old b n :=
  ⟨fun _ => ⟨exists_compactLegacy_iff, fun _ => expandLegacy_iff_compactLegacy.mpr⟩,
    fun _ => ⟨exists_expandLegacy_iff, fun _ => expandLegacy_iff_compactLegacy.mp⟩,
    fun _ _ => sameFields_of_compactLegacy⟩

end

end AvmSdk.Audit.Compact
