import AvmSdk.Contracts.Audit.Format

/-!
# The audit ledger

The contract `revenue-hub/contracts/audit`: states of one size, with room for sixteen members, and
zeros where there is no member.

* `Legacy.layout`, `Legacy.format`, `Legacy.reads`: its layout, and the form of its states.
* `Legacy.auditLedger`: the contract.
-/

namespace AvmSdk.Audit.Legacy

open Wire Sdk Contracts Hub

/-- Source: `STATE_BYTES` -/
def stateBytes : ℕ := 65540

/-- Source: `RECORD_BASE` -/
def recordBase : ℕ := 2052

/-- The number of members and the checks in front of the loop. Source: `validate` -/
def header (b : Bytes) : HubResult ℕ := do
  failIf (b.length ≠ stateBytes ∨ b.extract 0 4 ≠ toLe (65536 : U32) ∨ b.getD 36 0 = 0 ∨
    16 < b.getD 36 0 ∨ b.extract 37 68 ≠ List.replicate 31 0 ∨
    b.extract 4 36 = List.replicate 32 0) eAuditArgs
  let count := (b.getD 36 0).toNat
  failIf ((∃ v ∈ b.extract (68 + count * 64) recordBase, v ≠ 0) ∨
    ∃ v ∈ b.drop (recordBase + count * recordBytes), v ≠ 0) eAuditArgs
  pure count

/-- Source: `record` -/
def record [Target] (b : Bytes) (index : ℕ) : HubResult Record := do
  failIf (maxMembers ≤ index) eAuditArgs
  let row ← okOr (getRange b (recordBase + index * 32) (recordBase + (index + 1) * 32)) eAuditArgs
  Record.decode row

/-- What the contract does in its own way. -/
def layout [Target] : Layout where
  owner := 4
  bindings := 68
  records := fun _ => recordBase
  header := header
  record := record

/-- A new state. Source: `initialize` -/
def fresh (owner : Bytes32) (count : U8) : Bytes :=
  patch (patch (patch (List.replicate stateBytes 0) 0 (toLe (65536 : U32))) 4 owner.val) 36 [count]

/-- The batches that are refused. Source: `process_batch` -/
def Refused (input : BatchInput) : Prop :=
  input.requiredStateOutputMode ≠ .dataPatchList ∨ maxBatch < input.messageCount.toNat

instance : DecidablePred Refused := fun _ => inferInstanceAs (Decidable (_ ∨ _))

/-- **The contract.** Source: `AuditLedger` -/
def auditLedger [Target] : BatchContract where
  init := fun input => orFailure (Layout.initializeLedger fresh input)
  processMessage := fun input => orFailure (layout.isolated input)
  processBatch := layout.batch Refused fun _ patches => .dataPatchList patches

/-! ## The form of the states -/

/-- The form of the states. -/
def format : Format where
  head := fun owner count =>
    [toLe (65536 : U32), owner.val, [count], List.replicate 31 0].flatten
  bindings := 68
  gap := fun count => recordBase - (68 + count.toNat * 64)
  tail := fun count => stateBytes - (recordBase + count.toNat * recordBytes)

/-- The lengths of the fields of the head, -/
theorem lengths_head (owner : Bytes32) (count : U8) :
    [toLe (65536 : U32), owner.val, [count], List.replicate 31 0].map List.length =
      [4, 32, 1, 31] := by
  simp

/-- and that of the head. -/
theorem length_head (owner : Bytes32) (count : U8) : (format.head owner count).length = 68 :=
  length_flatten_of_lengths (lengths_head owner count)

section

variable {owner : Bytes32} {count : U8} {b : Bytes}

/-- The records start at a fixed place. -/
theorem recordsAt_eq (h : count.toNat ≤ maxMembers) : format.recordsAt count = recordBase := by
  have hmax : maxMembers = 16 := rfl
  show 68 + count.toNat * 64 + (2052 - (68 + count.toNat * 64)) = 2052
  omega

/-- The size of a state. -/
theorem size_eq (h : count.toNat ≤ maxMembers) : format.size count = stateBytes := by
  have hmax : maxMembers = 16 := rfl
  unfold Format.size
  rw [recordsAt_eq h]
  show 2052 + count.toNat * 32 + (65540 - (2052 + count.toNat * 32)) = 65540
  omega

/-- The head of a state, part by part. -/
theorem head_standsAt_iff (hlen : 68 ≤ b.length) : StandsAt b 0 (format.head owner count) ↔
    b.extract 0 4 = toLe (65536 : U32) ∧ b.extract 4 36 = owner.val ∧ b.getD 36 0 = count ∧
      b.extract 37 68 = List.replicate 31 0 := by
  have hone : b.extract 36 37 = [b.getD 36 0] := extract_one (by omega)
  unfold StandsAt
  rw [length_head, and_iff_right (by omega), Nat.zero_add, eq_comm]
  show [toLe (65536 : U32), owner.val, [count], List.replicate 31 0].flatten =
    b.extract 0 (0 + [4, 32, 1, 31].sum) ↔ _
  rw [flatten_eq_extract_iff (lengths_head owner count) (by simpa using hlen)]
  simp only [splitParts, List.cons.injEq, and_true, Nat.zero_add, Nat.reduceAdd, hone]
  constructor
  · rintro ⟨hlength, howner, hcount, hzero⟩
    exact ⟨hlength.symm, howner.symm, hcount.symm, hzero.symm⟩
  · rintro ⟨hlength, howner, hcount, hzero⟩
    exact ⟨hlength.symm, howner.symm, hcount.symm, hzero.symm⟩

/-- Zeros up to the end of a range. -/
theorem zeros_standsAt_iff {p q : ℕ} (hpq : p ≤ q) (hq : q ≤ b.length) :
    StandsAt b p (List.replicate (q - p) 0) ↔ ¬ ∃ v ∈ b.extract p q, v ≠ 0 := by
  unfold StandsAt
  rw [List.length_replicate, Nat.add_sub_cancel' hpq, and_iff_right hq, List.eq_replicate_iff,
    and_iff_right (length_extract_of_le hq)]
  push Not
  rfl

/-- What is left of a memory from a place on. -/
theorem drop_eq_extract (p : ℕ) : b.drop p = b.extract p b.length := by
  rw [List.extract_eq_take_drop, List.take_of_length_le (by rw [List.length_drop])]

/-- The frame of a state, part by part. -/
theorem frames_iff (h : count.toNat ≤ maxMembers) : format.Frames owner count b ↔
    b.length = stateBytes ∧ b.extract 0 4 = toLe (65536 : U32) ∧ b.extract 4 36 = owner.val ∧
      b.getD 36 0 = count ∧ b.extract 37 68 = List.replicate 31 0 ∧
      (¬ ∃ v ∈ b.extract (68 + count.toNat * 64) recordBase, v ≠ 0) ∧
      ¬ ∃ v ∈ b.drop (recordBase + count.toNat * recordBytes), v ≠ 0 := by
  have hmax : maxMembers = 16 := rfl
  have hbase : recordBase = 2052 := rfl
  have hsize : stateBytes = 65540 := rfl
  have hrow : recordBytes = 32 := rfl
  have hend : recordBase + count.toNat * recordBytes ≤ stateBytes := by
    rw [hrow]
    omega
  have hgap (hlen : b.length = stateBytes) :
      StandsAt b (68 + count.toNat * 64) (List.replicate (format.gap count) 0) ↔
        ¬ ∃ v ∈ b.extract (68 + count.toNat * 64) recordBase, v ≠ 0 :=
    zeros_standsAt_iff (by omega) (by omega)
  have htail (hlen : b.length = stateBytes) :
      StandsAt b (recordBase + count.toNat * recordBytes) (List.replicate (format.tail count) 0) ↔
        ¬ ∃ v ∈ b.drop (recordBase + count.toNat * recordBytes), v ≠ 0 := by
    rw [drop_eq_extract, hlen]
    exact zeros_standsAt_iff hend hlen.ge
  constructor
  · intro hframes
    have hlen := hframes.length_eq.trans (size_eq h)
    have htail_at := hframes.tail_at
    rw [recordsAt_eq h] at htail_at
    obtain ⟨hlength, howner, hcount, hzero⟩ := (head_standsAt_iff (by omega)).mp hframes.head_at
    exact ⟨hlen, hlength, howner, hcount, hzero, (hgap hlen).mp hframes.gap_at,
      (htail hlen).mp htail_at⟩
  · rintro ⟨hlen, hlength, howner, hcount, hzero, hnogap, hnotail⟩
    refine ⟨hlen.trans (size_eq h).symm,
      (head_standsAt_iff (by omega)).mpr ⟨hlength, howner, hcount, hzero⟩, (hgap hlen).mpr hnogap, ?_⟩
    rw [recordsAt_eq h]
    exact (htail hlen).mpr hnotail

/-- The test of the number of members. -/
theorem not_sixteen_lt_iff : ¬ 16 < count ↔ count.toNat ≤ maxMembers := by
  have hsixteen : (16 : U8).toNat = maxMembers := rfl
  rw [BitVec.lt_def, hsixteen, not_lt]

/-- The checks of a header. -/
theorem header_ok_iff {n : ℕ} : header b = .ok n ↔ ∃ owner count, owner ≠ zeros 32 ∧ count ≠ 0 ∧
    count.toNat ≤ maxMembers ∧ count.toNat = n ∧ format.Frames owner count b := by
  simp only [header, bind_ok_iff, failIf_ok_iff, pure_ok_iff, exists_const, not_or]
  constructor
  · rintro ⟨⟨hlen, hlength, hcount0, hcount, hzero, howner⟩, ⟨hnogap, hnotail⟩, rfl⟩
    rw [not_sixteen_lt_iff] at hcount
    rw [not_not] at hlen hlength hzero
    have hsize : stateBytes = 65540 := rfl
    have howner_len : (b.extract 4 36).length = 32 := length_extract_of_le (by omega)
    exact ⟨⟨b.extract 4 36, howner_len⟩, b.getD 36 0, fun hno => howner (congrArg Subtype.val hno),
      hcount0, hcount, rfl,
      (frames_iff hcount).mpr ⟨hlen, hlength, rfl, rfl, hzero, hnogap, hnotail⟩⟩
  · rintro ⟨owner, count, howner, hcount0, hcount, rfl, hframes⟩
    obtain ⟨hlen, hlength, howner_eq, rfl, hzero, hnogap, hnotail⟩ := (frames_iff hcount).mp hframes
    exact ⟨⟨not_not.mpr hlen, not_not.mpr hlength, hcount0, not_sixteen_lt_iff.mpr hcount,
      not_not.mpr hzero, fun hno => howner (Subtype.ext (howner_eq.symm.trans hno))⟩,
      ⟨hnogap, hnotail⟩, rfl⟩

end

/-- **The contract reads** states of this form. -/
theorem reads [Target] : layout.Reads format where
  bindings_eq := rfl
  length_head := length_head
  head_inj {owner owner' count count'} h := by
    have hrest := List.append_cancel_left h
    obtain ⟨howner, hrest⟩ := List.append_inj hrest (by rw [length_bytesN, length_bytesN])
    exact ⟨Subtype.ext howner, (List.cons.inj hrest).1⟩
  owner_at owner count := by
    have hlen := length_head owner count
    obtain ⟨-, howner, -⟩ := (head_standsAt_iff hlen.ge).mp standsAt_self
    refine ⟨?_, ?_⟩
    · rw [length_bytesN, hlen]
      exact (by decide : 4 + 32 ≤ 68)
    · rw [length_bytesN]
      exact howner
  size_lt {count} h := by
    rw [size_eq h]
    decide
  header_iff := header_ok_iff
  records_eq {owner count b} _ h := (recordsAt_eq h).symm
  record_eq {owner count b i} hb h hi := by
    have hfits : recordBase + (i + 1) * 32 ≤ b.length := by
      rw [hb.length_eq, size_eq h]
      unfold recordBase stateBytes
      omega
    have hrow : getRange b (recordBase + i * 32) (recordBase + (i + 1) * 32) =
        some (b.extract (recordBase + i * 32) (recordBase + (i + 1) * 32)) :=
      getRange_eq_some.mpr ⟨⟨by omega, hfits⟩, rfl⟩
    have hmember : ¬ maxMembers ≤ i := by omega
    show record b i = _
    unfold record
    rw [hrow, failIf, if_neg hmember, recordsAt_eq h]
    have hnext : recordBase + (i + 1) * 32 = recordBase + i * recordBytes + recordBytes := by
      unfold recordBytes
      omega
    rw [hnext]
    rfl

/-- A new state is that of a new ledger. -/
theorem fresh_eq {owner : Bytes32} {count : U8} (h : count.toNat ≤ maxMembers) :
    fresh owner count = format.encode (Ledger.new owner count) := by
  have hsplit : format.head owner count =
      ((toLe (65536 : U32) ++ owner.val) ++ [count]) ++ List.replicate 31 0 := by
    show [toLe (65536 : U32), owner.val, [count], List.replicate 31 0].flatten = _
    simp
  unfold fresh
  rw [patch_patch (i := 0) ?_ (Nat.zero_le _), patch_patch (i := 0) ?_ (Nat.zero_le _), ← size_eq h]
  · exact Format.patch_zeros_eq length_head hsplit
  · simp
  · simp

end AvmSdk.Audit.Legacy
