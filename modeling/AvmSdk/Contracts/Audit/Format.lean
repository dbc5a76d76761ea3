import AvmSdk.Contracts.Audit.Refinement

/-!
# States with a head, sources and records

The states of both contracts have one form: a head with the owner and the number of members, a row for
each source, zeros, a row for each record, and zeros up to the end. A layout that reads and checks
states of such a form is lawful.

* `Format`: the form. `Format.encode`: the state of a ledger.
* `Format.encode_eq_iff`: what stands where in the state of a ledger.
* `Layout.Reads`: what a layout must do with a form. `Layout.Reads.lawful`.
-/

namespace AvmSdk.Audit

open Wire Sdk Contracts Hub

/-- **A form of states.** -/
structure Format where
  /-- What stands in front of the sources. -/
  head : Bytes32 → U8 → Bytes
  /-- The length of the head. -/
  bindings : ℕ
  /-- The number of zeros behind the sources. -/
  gap : U8 → ℕ
  /-- The number of zeros behind the records. -/
  tail : U8 → ℕ

namespace Format

/-- Where the records stand. -/
def recordsAt (f : Format) (count : U8) : ℕ := f.bindings + count.toNat * 64 + f.gap count

/-- The length of a state. -/
def size (f : Format) (count : U8) : ℕ :=
  f.recordsAt count + count.toNat * recordBytes + f.tail count

/-- The sources of the members, one after the other. -/
def sourceRows (l : Ledger) : List Bytes :=
  List.ofFn fun i : Fin l.count.toNat => (l.sources (slot i)).toBytes

/-- The records of the members, one after the other. -/
def recordRows (l : Ledger) : List Bytes :=
  List.ofFn fun i : Fin l.count.toNat => (l.records (slot i)).encode

/-- **The state of a ledger.** -/
def encode (f : Format) (l : Ledger) : Bytes :=
  [f.head l.owner l.count, (sourceRows l).flatten, List.replicate (f.gap l.count) 0,
    (recordRows l).flatten, List.replicate (f.tail l.count) 0].flatten

/-- The frame of a state: all of it but the sources and the records. -/
structure Frames (f : Format) (owner : Bytes32) (count : U8) (b : Bytes) : Prop where
  length_eq : b.length = f.size count
  head_at : StandsAt b 0 (f.head owner count)
  gap_at : StandsAt b (f.bindings + count.toNat * 64) (List.replicate (f.gap count) 0)
  tail_at : StandsAt b (f.recordsAt count + count.toNat * recordBytes)
    (List.replicate (f.tail count) 0)

/-- What stands between the frame of a state. -/
structure Holds (f : Format) (l : Ledger) (b : Bytes) : Prop where
  frames : f.Frames l.owner l.count b
  source_at : ∀ i < l.count.toNat, StandsAt b (f.bindings + i * 64) (l.sources (slot i)).toBytes
  record_at : ∀ i < l.count.toNat,
    StandsAt b (f.recordsAt l.count + i * recordBytes) (l.records (slot i)).encode

section

variable {f : Format} {l l' : Ledger} {b : Bytes}

/-- The length of the sources, -/
theorem length_sourceRows (l : Ledger) : (sourceRows l).flatten.length = l.count.toNat * 64 :=
  length_flatten_rows fun _ => AccountAddress.length_toBytes _

/-- and that of the records. -/
theorem length_recordRows (l : Ledger) :
    (recordRows l).flatten.length = l.count.toNat * recordBytes :=
  length_flatten_rows fun _ => Record.length_encode _

/-- Rows of one width stand in a memory one after the other. -/
theorem flatten_rows_standsAt_iff {n w p : ℕ} {rows : Fin n → Bytes} (h : ∀ i, (rows i).length = w)
    (hle : p + n * w ≤ b.length) : (List.ofFn rows).flatten = b.extract p (p + n * w) ↔
      ∀ i : Fin n, StandsAt b (p + i * w) (rows i) := by
  rw [flatten_rows_iff h hle]
  refine forall_congr' fun i => ?_
  unfold StandsAt
  rw [h i, eq_comm, and_iff_right]
  have hrow : (i.val + 1) * w ≤ n * w := Nat.mul_le_mul_right w i.isLt
  rw [Nat.add_mul, Nat.one_mul] at hrow
  omega

/-- **What stands where** in the state of a ledger. -/
theorem encode_eq_iff (hhead : ∀ owner count, (f.head owner count).length = f.bindings) :
    f.encode l = b ↔ f.Holds l b := by
  have hlens : [f.head l.owner l.count, (sourceRows l).flatten, List.replicate (f.gap l.count) 0,
      (recordRows l).flatten, List.replicate (f.tail l.count) 0].map List.length =
        [f.bindings, l.count.toNat * 64, f.gap l.count, l.count.toNat * recordBytes,
          f.tail l.count] := by
    simp only [List.map_cons, List.map_nil, hhead, length_sourceRows, length_recordRows,
      List.length_replicate]
  have hsum : [f.bindings, l.count.toNat * 64, f.gap l.count, l.count.toNat * recordBytes,
      f.tail l.count].sum = f.size l.count := by
    simp only [List.sum_cons, List.sum_nil, size, recordsAt]
    omega
  have hend : f.recordsAt l.count + l.count.toNat * recordBytes ≤ f.size l.count := by
    unfold size
    omega
  have hmid : f.bindings + l.count.toNat * 64 + f.gap l.count = f.recordsAt l.count := rfl
  constructor
  · rintro rfl
    have hlength : (f.encode l).length = f.size l.count :=
      (length_flatten_of_lengths hlens).trans hsum
    have hparts := (flatten_eq_iff hlens (hlength.trans hsum.symm)).mp rfl
    simp only [splitParts, List.cons.injEq, and_true, Nat.zero_add, hmid] at hparts
    obtain ⟨hhead_eq, hsources, hgap, hrecords, htail⟩ := hparts
    have hsource := (flatten_rows_standsAt_iff (fun _ => AccountAddress.length_toBytes _)
      (by rw [hlength]; omega)).mp hsources
    have hrecord := (flatten_rows_standsAt_iff (fun _ => Record.length_encode _)
      (by rw [hlength]; omega)).mp hrecords
    refine ⟨⟨hlength, ⟨?_, ?_⟩, ⟨?_, ?_⟩, ⟨?_, ?_⟩⟩, fun i hi => hsource ⟨i, hi⟩,
      fun i hi => hrecord ⟨i, hi⟩⟩
    · rw [hhead, hlength]
      omega
    · rw [hhead, Nat.zero_add]
      exact hhead_eq.symm
    · rw [List.length_replicate, hlength]
      omega
    · rw [List.length_replicate]
      exact hgap.symm
    · rw [List.length_replicate, hlength]
      exact le_refl _
    · rw [List.length_replicate]
      exact htail.symm
  · rintro ⟨⟨hlength, hhead_at, hgap, htail⟩, hsource, hrecord⟩
    refine (flatten_eq_iff hlens (hlength.trans hsum.symm)).mpr ?_
    have hheadread := hhead_at.2
    have hgapread := hgap.2
    have htailread := htail.2
    rw [hhead, Nat.zero_add] at hheadread
    rw [List.length_replicate] at hgapread htailread
    rw [hmid] at hgapread
    have hsources : (sourceRows l).flatten = _ :=
      (flatten_rows_standsAt_iff (fun _ => AccountAddress.length_toBytes _)
        (by rw [hlength]; omega)).mpr fun i : Fin l.count.toNat => hsource i.val i.isLt
    have hrecords : (recordRows l).flatten = _ :=
      (flatten_rows_standsAt_iff (fun _ => Record.length_encode _) (by rw [hlength]; omega)).mpr
        fun i : Fin l.count.toNat => hrecord i.val i.isLt
    simp only [splitParts, Nat.zero_add, hmid, hheadread, hgapread, htailread,
      hsources, hrecords]

/-! ### Patches -/

variable {i : ℕ}

/-- A write between the parts of the frame leaves the frame. -/
theorem Frames.patched {owner : Bytes32} {count : U8} (h : f.Frames owner count b) {o : ℕ}
    {u : Bytes} (hhead : (f.head owner count).length ≤ o)
    (hgap : o + u.length ≤ f.bindings + count.toNat * 64 ∨ f.recordsAt count ≤ o)
    (htail : o + u.length ≤ f.recordsAt count + count.toNat * recordBytes) :
    f.Frames owner count (patch b o u) := by
  have hfits : o + u.length ≤ b.length := by
    rw [h.length_eq]
    unfold size
    omega
  refine ⟨(length_patch hfits).trans h.length_eq, h.head_at.patched hfits (by omega),
    h.gap_at.patched hfits ?_, h.tail_at.patched hfits (.inr htail)⟩
  rw [List.length_replicate]
  exact hgap.symm

/-- Distinct indices below the maximum are distinct slots. -/
theorem slot_inj {j : ℕ} (hi : i < maxMembers) (hj : j < maxMembers) : slot i = slot j ↔ i = j := by
  rw [← Fin.val_inj, Ledger.val_slot hi, Ledger.val_slot hj]

/-- A write over a source sets the source. -/
theorem Holds.withSource (h : f.Holds l b) (hl : l.Valid)
    (hhead : ∀ owner count, (f.head owner count).length = f.bindings) (hi : i < l.count.toNat)
    (a : AccountAddress) : f.Holds (l.withSource i a) (patch b (f.bindings + i * 64) a.toBytes) := by
  have hlen : a.toBytes.length = 64 := AccountAddress.length_toBytes a
  have hmax := hl.count_le
  have hfits : f.bindings + i * 64 + a.toBytes.length ≤ b.length := by
    rw [h.frames.length_eq]
    unfold size recordsAt
    omega
  refine ⟨h.frames.patched (by rw [hhead]; omega) (.inl (by omega)) (by unfold recordsAt; omega),
    fun j hj => ?_, fun j hj => ?_⟩
  · change j < l.count.toNat at hj
    show StandsAt _ _ (Function.update l.sources (slot i) a (slot j)).toBytes
    by_cases hij : j = i
    · rw [hij, Function.update_self]
      exact standsAt_patch hfits
    · rw [Function.update_of_ne (mt (slot_inj (by omega) (by omega)).mp hij)]
      refine (h.source_at j hj).patched hfits ?_
      rw [AccountAddress.length_toBytes]
      omega
  · refine (h.record_at j hj).patched hfits (.inr ?_)
    unfold recordsAt
    omega

/-- A write over a record changes the record. -/
theorem Holds.withRecord (h : f.Holds l b) (hl : l.Valid)
    (hhead : ∀ owner count, (f.head owner count).length = f.bindings) (hi : i < l.count.toNat)
    (r : Record) :
    f.Holds (l.withRecord i r) (patch b (f.recordsAt l.count + i * recordBytes) r.encode) := by
  have hlen : r.encode.length = recordBytes := r.length_encode
  have hwidth : recordBytes = 32 := rfl
  have hmax := hl.count_le
  have hbase : f.bindings + l.count.toNat * 64 ≤ f.recordsAt l.count := Nat.le_add_right ..
  have hfits : f.recordsAt l.count + i * recordBytes + r.encode.length ≤ b.length := by
    rw [h.frames.length_eq, hlen]
    unfold size recordBytes
    omega
  refine ⟨h.frames.patched (by rw [hhead]; omega) (.inr (by omega)) (by rw [hlen, hwidth]; omega),
    fun j hj => ?_, fun j hj => ?_⟩
  · refine (h.source_at j hj).patched hfits (.inl ?_)
    rw [AccountAddress.length_toBytes]
    change j < l.count.toNat at hj
    omega
  · change j < l.count.toNat at hj
    show StandsAt _ _ (Function.update l.records (slot i) r (slot j)).encode
    by_cases hij : j = i
    · rw [hij, Function.update_self]
      exact standsAt_patch hfits
    · rw [Function.update_of_ne (mt (slot_inj (by omega) (by omega)).mp hij)]
      refine (h.record_at j hj).patched hfits ?_
      rw [Record.length_encode, hlen, hwidth]
      omega

/-! ### New ledgers -/

/-- Equal rows of zeros are zeros. -/
theorem flatten_ofFn_zeros (n w : ℕ) :
    (List.ofFn fun _ : Fin n => List.replicate w (0 : Byte)).flatten = List.replicate (n * w) 0 := by
  rw [List.ofFn_const, List.flatten_replicate_replicate]

/-- **A head over zeros** is the state of a new ledger. -/
theorem patch_zeros_eq (hhead : ∀ owner count, (f.head owner count).length = f.bindings)
    {owner : Bytes32} {count : U8} {u : Bytes} {n : ℕ}
    (hu : f.head owner count = u ++ List.replicate n 0) :
    patch (List.replicate (f.size count) 0) 0 u = f.encode (Ledger.new owner count) := by
  have hsources : (sourceRows (Ledger.new owner count)).flatten =
      List.replicate (count.toNat * 64) 0 := flatten_ofFn_zeros count.toNat 64
  have hrecords : (recordRows (Ledger.new owner count)).flatten =
      List.replicate (count.toNat * recordBytes) 0 := by
    have hrow : Record.default.encode = List.replicate recordBytes 0 := by decide
    show (List.ofFn fun _ : Fin count.toNat => Record.default.encode).flatten = _
    rw [hrow]
    exact flatten_ofFn_zeros count.toNat recordBytes
  have hlen : u.length + n = f.bindings := by
    rw [← hhead owner count, hu, List.length_append, List.length_replicate]
  have hsize : f.size count - u.length = n + (count.toNat * 64 + (f.gap count +
      (count.toNat * recordBytes + f.tail count))) := by
    unfold size recordsAt
    omega
  unfold encode patch
  rw [hsources, hrecords, List.take_zero, List.nil_append, List.drop_replicate, Nat.zero_add, hsize]
  show _ = f.head owner count ++ (List.replicate (count.toNat * 64) 0 ++
    (List.replicate (f.gap count) 0 ++ (List.replicate (count.toNat * recordBytes) 0 ++
      (List.replicate (f.tail count) 0 ++ []))))
  rw [hu, List.append_nil, List.append_assoc, ← List.replicate_add, ← List.replicate_add,
    ← List.replicate_add, ← List.replicate_add]

/-- **Sources and records written into a new ledger.** -/
theorem patch_rows (hhead : ∀ owner count, (f.head owner count).length = f.bindings) (l : Ledger) :
    patch (patch (f.encode (Ledger.new l.owner l.count)) f.bindings (sourceRows l).flatten)
      (f.recordsAt l.count) (recordRows l).flatten = f.encode l := by
  have hsources : (sourceRows l).flatten.length =
      (sourceRows (Ledger.new l.owner l.count)).flatten.length :=
    (length_sourceRows l).trans (length_sourceRows (Ledger.new l.owner l.count)).symm
  have hrecords : (recordRows l).flatten.length =
      (recordRows (Ledger.new l.owner l.count)).flatten.length :=
    (length_recordRows l).trans (length_recordRows (Ledger.new l.owner l.count)).symm
  have hfirst : patch (f.encode (Ledger.new l.owner l.count)) f.bindings (sourceRows l).flatten =
      f.head l.owner l.count ++ ((sourceRows l).flatten ++ (List.replicate (f.gap l.count) 0 ++
        ((recordRows (Ledger.new l.owner l.count)).flatten ++
          (List.replicate (f.tail l.count) 0 ++ [])))) :=
    patch_middle (hhead l.owner l.count).symm hsources
  rw [hfirst, ← List.append_assoc, ← List.append_assoc, patch_middle ?_ hrecords]
  · rw [List.append_assoc, List.append_assoc]
    rfl
  · rw [List.length_append, List.length_append, hhead, length_sourceRows, List.length_replicate]
    rfl

/-- The sources as they are read from a state. -/
theorem Holds.extract_sources (h : f.Holds l b) :
    b.extract f.bindings (f.bindings + l.count.toNat * 64) = (sourceRows l).flatten := by
  refine ((flatten_rows_standsAt_iff (fun _ => AccountAddress.length_toBytes _) ?_).mpr
    fun i : Fin l.count.toNat => h.source_at i.val i.isLt).symm
  rw [h.frames.length_eq]
  unfold size recordsAt
  omega

/-- The records as they are read from a state. -/
theorem Holds.extract_records (h : f.Holds l b) :
    b.extract (f.recordsAt l.count) (f.recordsAt l.count + l.count.toNat * recordBytes) =
      (recordRows l).flatten := by
  refine ((flatten_rows_standsAt_iff (fun _ => Record.length_encode _) ?_).mpr
    fun i : Fin l.count.toNat => h.record_at i.val i.isLt).symm
  rw [h.frames.length_eq]
  unfold size
  omega

end

end Format

/-! ## Records -/

section

variable [Target] {b : Bytes} {r r' : Record}

/-- A record is decoded from its encoding. -/
theorem Record.decode_ok_iff : decode b = .ok r ↔ r.encode = b := by
  have hparts : r.encode = [toLe r.lastNonce, toLe r.total, toLe r.count].flatten := by
    simp [encode]
  have hlens : [toLe r.lastNonce, toLe r.total, toLe r.count].map List.length = [8, 16, 8] := by
    simp
  simp only [decode, bind_ok_iff, failIf_ok_iff, not_not, pure_ok_iff, exists_const]
  constructor
  · rintro ⟨hlen, nonce, hnonce, total, htotal, count, hcount, rfl⟩
    unfold recordBytes at hlen
    rw [wordAt_ok_iff (by omega) (by decide) (by omega)] at hnonce htotal hcount
    rw [hparts, flatten_eq_iff hlens hlen]
    simp only [splitParts, hnonce, htotal, hcount]
  · rintro rfl
    have hlen := r.length_encode
    unfold recordBytes at hlen
    have hread : _ = splitParts 0 [8, 16, 8] r.encode := (flatten_eq_iff hlens hlen).mp hparts.symm
    simp only [splitParts, List.cons.injEq, and_true] at hread
    obtain ⟨hnonce, htotal, hcount⟩ := hread
    exact ⟨hlen, r.lastNonce, (wordAt_ok_iff (by omega) (by decide) (by omega)).mpr hnonce,
      r.total, (wordAt_ok_iff (by omega) (by decide) (by omega)).mpr htotal,
      r.count, (wordAt_ok_iff (by omega) (by decide) (by omega)).mpr hcount, rfl⟩

/-- Distinct records have distinct encodings. -/
theorem Record.encode_inj (h : r.encode = r'.encode) : r = r' := by
  have hr : decode r'.encode = .ok r := decode_ok_iff.mpr h
  rw [decode_ok_iff.mpr rfl] at hr
  cases hr
  rfl

omit [Target] in
/-- Every string of the length of a record is the encoding of one. -/
theorem Record.exists_encode (h : b.length = recordBytes) : ∃ r : Record, r.encode = b := by
  unfold recordBytes at h
  have hparts : [toLe (ofLe 64 (b.extract 0 8)), toLe (ofLe 128 (b.extract 8 24)),
      toLe (ofLe 64 (b.extract 24 32))] = splitParts 0 [8, 16, 8] b := by
    rw [toLe_ofLe (by rw [length_extract_of_le (by omega)]),
      toLe_ofLe (by rw [length_extract_of_le (by omega)]),
      toLe_ofLe (by rw [length_extract_of_le (by omega)])]
    rfl
  refine ⟨⟨ofLe 64 (b.extract 0 8), ofLe 128 (b.extract 8 24), ofLe 64 (b.extract 24 32)⟩, ?_⟩
  refine Eq.trans ?_ ((flatten_eq_iff (by simp) h).mpr hparts)
  simp [encode]

end

namespace Format

variable {f : Format} {l l' : Ledger} {b : Bytes} {owner : Bytes32} {count : U8} {i : ℕ}

/-- Where a source stands, there is room for it. -/
theorem Frames.source_fits (hb : f.Frames owner count b) (hi : i < count.toNat) :
    f.bindings + i * 64 + 64 ≤ b.length := by
  rw [hb.length_eq]
  unfold size recordsAt
  omega

/-- Where a record stands, there is room for it. -/
theorem Frames.record_fits (hb : f.Frames owner count b) (hi : i < count.toNat) :
    f.recordsAt count + i * recordBytes + recordBytes ≤ b.length := by
  rw [hb.length_eq]
  unfold size recordBytes
  omega

/-- **Every frame holds a ledger.** -/
theorem Frames.exists_holds (hb : f.Frames owner count b) (hcount : count.toNat ≤ maxMembers) :
    ∃ l : Ledger, l.owner = owner ∧ l.count = count ∧ l.Trimmed ∧ f.Holds l b := by
  have hsource (i : ℕ) : ∃ a : AccountAddress,
      i < count.toNat → StandsAt b (f.bindings + i * 64) a.toBytes := by
    by_cases hi : i < count.toNat
    · have hfits := hb.source_fits hi
      obtain ⟨a, ha⟩ := AccountAddress.exists_toBytes
        (u := b.extract (f.bindings + i * 64) (f.bindings + i * 64 + 64))
        (by rw [length_extract_of_le hfits]; omega)
      refine ⟨a, fun _ => ?_⟩
      unfold StandsAt
      rw [AccountAddress.length_toBytes]
      exact ⟨hfits, ha.symm⟩
    · exact ⟨zeroAddress, fun hno => absurd hno hi⟩
  have hrecord (i : ℕ) : ∃ r : Record,
      i < count.toNat → StandsAt b (f.recordsAt count + i * recordBytes) r.encode := by
    by_cases hi : i < count.toNat
    · have hfits := hb.record_fits hi
      obtain ⟨r, hr⟩ := Record.exists_encode (b := b.extract (f.recordsAt count + i * recordBytes)
        (f.recordsAt count + i * recordBytes + recordBytes))
        (by rw [length_extract_of_le hfits]; omega)
      refine ⟨r, fun _ => ?_⟩
      unfold StandsAt
      rw [Record.length_encode]
      exact ⟨hfits, hr.symm⟩
    · exact ⟨Record.default, fun hno => absurd hno hi⟩
  choose sources hsources using hsource
  choose records hrecords using hrecord
  have hslot {i : ℕ} (hi : i < count.toNat) : (slot i).val = i :=
    Ledger.val_slot (lt_of_lt_of_le hi hcount)
  refine ⟨⟨owner, count, fun i => if i.val < count.toNat then sources i.val else zeroAddress,
    fun i => if i.val < count.toNat then records i.val else Record.default⟩, rfl, rfl,
    fun i hi => ⟨if_neg hi, if_neg hi⟩, hb, fun i hi => ?_, fun i hi => ?_⟩
  · change i < count.toNat at hi
    dsimp only
    rw [hslot hi, if_pos hi]
    exact hsources i hi
  · change i < count.toNat at hi
    dsimp only
    rw [hslot hi, if_pos hi]
    exact hrecords i hi

end Format

/-! ## Layouts -/

/-- **What a layout must do** with the states of a form. -/
structure Layout.Reads [Target] (k : Layout) (f : Format) : Prop where
  bindings_eq : k.bindings = f.bindings
  length_head : ∀ owner count, (f.head owner count).length = f.bindings
  head_inj : ∀ {owner owner' count count'}, f.head owner count = f.head owner' count' →
    owner = owner' ∧ count = count'
  owner_at : ∀ owner count, StandsAt (f.head owner count) k.owner owner.val
  size_lt : ∀ {count : U8}, count.toNat ≤ maxMembers → f.size count < 2 ^ 32
  header_iff : ∀ {b n}, k.header b = .ok n ↔ ∃ owner count, owner ≠ zeros 32 ∧ count ≠ 0 ∧
    count.toNat ≤ maxMembers ∧ count.toNat = n ∧ f.Frames owner count b
  records_eq : ∀ {owner count b}, f.Frames owner count b → count.toNat ≤ maxMembers →
    k.records b = f.recordsAt count
  record_eq : ∀ {owner count b i}, f.Frames owner count b → count.toNat ≤ maxMembers →
    i < count.toNat → k.record b i = Record.decode (b.extract (f.recordsAt count + i * recordBytes)
      (f.recordsAt count + i * recordBytes + recordBytes))

/-- The checks of the first members. -/
structure MembersOk (sources : ℕ → AccountAddress) (records : ℕ → Record) (n : ℕ) : Prop where
  source_ok : ∀ i < n, sources i ≠ zeroAddress → nonzeroAddress (sources i)
  source_inj : ∀ i < n, ∀ j < n, sources i ≠ zeroAddress → sources i = sources j → i = j
  record_ok : ∀ i < n, ¬ (records i).Malformed

section

variable {sources : ℕ → AccountAddress} {records : ℕ → Record} {n : ℕ}

/-- The sources of the first members that are set. -/
def setSources (sources : ℕ → AccountAddress) (n : ℕ) : List AccountAddress :=
  ((List.range n).map sources).filter (· ≠ zeroAddress)

/-- What is among the sources that are set. -/
theorem mem_setSources {a : AccountAddress} :
    a ∈ setSources sources n ↔ a ≠ zeroAddress ∧ ∃ i < n, sources i = a := by
  simp only [setSources, List.mem_filter, List.mem_map, List.mem_range, decide_eq_true_eq]
  exact and_comm

/-- The sources that are set, one member further. -/
theorem setSources_succ : setSources sources (n + 1) =
    setSources sources n ++ if sources n = zeroAddress then [] else [sources n] := by
  unfold setSources
  rw [List.range_succ, List.map_append, List.filter_append]
  congr 1
  by_cases h : sources n = zeroAddress <;> simp [h]

/-- The checks of the members, one member further. -/
theorem membersOk_succ_iff : MembersOk sources records (n + 1) ↔ MembersOk sources records n ∧
    (sources n ≠ zeroAddress → nonzeroAddress (sources n) ∧ ∀ i < n, sources i ≠ sources n) ∧
      ¬ (records n).Malformed := by
  constructor
  · rintro ⟨hok, hinj, hrecord⟩
    refine ⟨⟨fun i hi => hok i (by omega), fun i hi j hj => hinj i (by omega) j (by omega),
      fun i hi => hrecord i (by omega)⟩, fun hset => ⟨hok n (by omega) hset, fun i hi heq => ?_⟩,
      hrecord n (by omega)⟩
    have := hinj n (by omega) i (by omega) hset heq.symm
    omega
  · rintro ⟨⟨hok, hinj, hrecord⟩, hset, hlast⟩
    refine ⟨fun i hi => ?_, fun i hi j hj hne heq => ?_, fun i hi => ?_⟩
    · rcases Nat.lt_succ_iff_lt_or_eq.mp hi with hlt | rfl
      · exact hok i hlt
      · exact fun hne => (hset hne).1
    · rcases Nat.lt_succ_iff_lt_or_eq.mp hi with hlt | rfl <;>
        rcases Nat.lt_succ_iff_lt_or_eq.mp hj with hlt' | rfl
      · exact hinj i hlt j hlt' hne heq
      · exact absurd heq ((hset (heq ▸ hne)).2 i hlt)
      · exact absurd heq.symm ((hset hne).2 j hlt')
      · rfl
    · rcases Nat.lt_succ_iff_lt_or_eq.mp hi with hlt | rfl
      · exact hrecord i hlt
      · exact hlast

end

namespace Layout

section

variable [Target] {k : Layout} {f : Format} {b : Bytes} {n : ℕ}
  {sources : ℕ → AccountAddress} {records : ℕ → Record}

omit [Target] in
/-- When a source is taken, and what has been seen then. -/
theorem pushSource_ok_iff {seen next : List AccountAddress} {source : AccountAddress} :
    pushSource seen source = .ok next ↔
      (source ≠ zeroAddress → nonzeroAddress source ∧ source ∉ seen) ∧
        next = seen ++ if source = zeroAddress then [] else [source] := by
  unfold pushSource
  split_ifs with hzero
  · rw [List.append_nil, Except.ok.injEq, eq_comm]
    exact ⟨fun h => ⟨fun hne => absurd hzero hne, h⟩, fun h => h.2⟩
  · simp only [bind_ok_iff, failIf_ok_iff, pure_ok_iff, exists_const, not_or, not_not]
    exact ⟨fun h => ⟨fun _ => h.1, h.2.symm⟩, fun h => ⟨h.1 hzero, h.2.symm⟩⟩

/-- **The loop over the members** collects the sources that are set, if all checks succeed. -/
theorem foldlM_checkMember_ok_iff (hsource : ∀ i < n, k.sourceAt b i = .ok (sources i))
    (hrecord : ∀ i < n, k.record b i = .ok (records i)) (seen : List AccountAddress) :
    (List.range n).foldlM (k.checkMember b) [] = .ok seen ↔
      MembersOk sources records n ∧ seen = setSources sources n := by
  induction n generalizing seen with
  | zero =>
      show Except.ok [] = .ok seen ↔ _
      rw [Except.ok.injEq, eq_comm]
      exact ⟨fun h => ⟨⟨nofun, nofun, nofun⟩, h⟩, fun h => h.2⟩
  | succ n ih =>
      have hstep (seen next : List AccountAddress) : k.checkMember b seen n = .ok next ↔
          (sources n ≠ zeroAddress → nonzeroAddress (sources n) ∧ sources n ∉ seen) ∧
            ¬ (records n).Malformed ∧
            next = seen ++ if sources n = zeroAddress then [] else [sources n] := by
        simp only [checkMember, hsource n (by omega), hrecord n (by omega), ok_bind, bind_ok_iff,
          pushSource_ok_iff, failIf_ok_iff, pure_ok_iff, exists_const]
        constructor
        · rintro ⟨next, ⟨hset, rfl⟩, hgood, rfl⟩
          exact ⟨hset, hgood, rfl⟩
        · rintro ⟨hset, hgood, rfl⟩
          exact ⟨_, ⟨hset, rfl⟩, hgood, rfl⟩
      have hloop (seen : List AccountAddress) := ih (fun i hi => hsource i (by omega))
        (fun i hi => hrecord i (by omega)) seen
      have hfresh : (sources n ≠ zeroAddress →
          nonzeroAddress (sources n) ∧ sources n ∉ setSources sources n) ↔
          (sources n ≠ zeroAddress →
            nonzeroAddress (sources n) ∧ ∀ i < n, sources i ≠ sources n) := by
        refine forall_congr' fun hne => and_congr_right fun _ => ?_
        rw [mem_setSources, and_iff_right hne]
        push Not
        rfl
      rw [List.range_succ, List.foldlM_append, bind_ok_iff, membersOk_succ_iff, setSources_succ]
      simp only [List.foldlM_cons, List.foldlM_nil, bind_pure, hloop, hstep]
      constructor
      · rintro ⟨seen, ⟨hmembers, rfl⟩, hset, hgood, rfl⟩
        exact ⟨⟨hmembers, hfresh.mp hset, hgood⟩, rfl⟩
      · rintro ⟨⟨hmembers, hset, hgood⟩, rfl⟩
        exact ⟨_, ⟨hmembers, rfl⟩, hfresh.mpr hset, hgood, rfl⟩

/-! ### Reading the state of a ledger -/

variable {l : Ledger} {i : ℕ}

namespace Reads

variable (h : k.Reads f)

include h

/-- A framed state fits in 32 bits. -/
theorem length_lt {owner : Bytes32} {count : U8} (hb : f.Frames owner count b)
    (hcount : count.toNat ≤ maxMembers) : b.length < 2 ^ 32 := by
  rw [hb.length_eq]
  exact h.size_lt hcount

/-- The source that is read is the one that stands there, -/
theorem source_ok_iff {owner : Bytes32} {count : U8} (hb : f.Frames owner count b)
    (hcount : count.toNat ≤ maxMembers) (hi : i < count.toNat) {a : AccountAddress} :
    k.sourceAt b i = .ok a ↔ StandsAt b (f.bindings + i * 64) a.toBytes := by
  unfold sourceAt StandsAt
  rw [h.bindings_eq, addressAt_ok_iff (h.length_lt hb hcount) (hb.source_fits hi),
    AccountAddress.length_toBytes, and_iff_right (hb.source_fits hi), eq_comm]

/-- and so is the record. -/
theorem record_ok_iff {owner : Bytes32} {count : U8} (hb : f.Frames owner count b)
    (hcount : count.toNat ≤ maxMembers) (hi : i < count.toNat) {r : Record} :
    k.record b i = .ok r ↔ StandsAt b (f.recordsAt count + i * recordBytes) r.encode := by
  unfold StandsAt
  rw [h.record_eq hb hcount hi, Record.decode_ok_iff, Record.length_encode,
    and_iff_right (hb.record_fits hi), eq_comm]

/-- **The check of a state** accepts the states of the valid ledgers. -/
theorem validate_iff : k.validate b = .ok n ↔
    ∃ l : Ledger, l.Valid ∧ f.encode l = b ∧ l.count.toNat = n := by
  have hslot {l : Ledger} (hcount : l.count.toNat ≤ maxMembers) {i : ℕ} (hi : i < l.count.toNat) :
      (slot i).val = i := Ledger.val_slot (lt_of_lt_of_le hi hcount)
  have hloop {l : Ledger} (hcount : l.count.toNat ≤ maxMembers) (hb : f.Holds l b)
      (seen : List AccountAddress) :=
    foldlM_checkMember_ok_iff
      (fun i hi => (h.source_ok_iff hb.frames hcount hi).mpr (hb.source_at i hi))
      (fun i hi => (h.record_ok_iff hb.frames hcount hi).mpr (hb.record_at i hi)) seen
  simp only [validate, bind_ok_iff, pure_ok_iff, h.header_iff]
  constructor
  · rintro ⟨_, ⟨owner, count, howner, hcount0, hcount, rfl, hframes⟩, seen, hseen, rfl⟩
    obtain ⟨l, rfl, rfl, htrimmed, hb⟩ := hframes.exists_holds hcount
    obtain ⟨⟨hok, hinj, hgood⟩, -⟩ := (hloop hcount hb seen).mp hseen
    have hactive (i : Fin maxMembers) (hset : l.sources i ≠ zeroAddress) : l.Active i :=
      by_contra fun hno => hset (htrimmed i hno).1
    refine ⟨l, ⟨hcount0, hcount, howner, htrimmed, fun i hset => ?_, fun i j hset heq => ?_,
      fun i => ?_⟩, (Format.encode_eq_iff h.length_head).mpr hb, rfl⟩
    · have hi := hok i.val (hactive i hset)
      rw [Ledger.slot_val] at hi
      exact hi hset
    · have hi := hinj i.val (hactive i hset) j.val (hactive j (heq ▸ hset))
      rw [Ledger.slot_val, Ledger.slot_val] at hi
      exact Fin.ext (hi hset heq)
    · by_cases hi : l.Active i
      · have hr := hgood i.val hi
        rw [Ledger.slot_val] at hr
        exact hr
      · rw [(htrimmed i hi).2]
        decide
  · rintro ⟨l, hl, hstate, rfl⟩
    have hb := (Format.encode_eq_iff h.length_head).mp hstate
    have hcount := hl.count_le
    refine ⟨_, ⟨l.owner, l.count, hl.owner_ne_zero, hl.count_ne_zero, hcount, rfl, hb.frames⟩, _,
      (hloop hcount hb _).mpr ⟨⟨fun i _ => hl.source_ok _, fun i hi j hj hset heq => ?_,
        fun i _ => hl.record_ok _⟩, rfl⟩, rfl⟩
    have hij := hl.source_inj _ _ hset heq
    rw [← Fin.val_inj, hslot hcount hi, hslot hcount hj] at hij
    exact hij

/-- The state determines the ledger. -/
theorem encode_inj {l l' : Ledger} (hl : l.Trimmed) (hl' : l'.Trimmed)
    (heq : f.encode l = f.encode l') : l = l' := by
  obtain ⟨hframes, hsource, hrecord⟩ := (Format.encode_eq_iff h.length_head).mp heq
  obtain ⟨hframes', hsource', hrecord'⟩ :=
    (Format.encode_eq_iff (b := f.encode l') h.length_head).mp rfl
  have hhead := hframes.head_at.eq_of_length hframes'.head_at (by rw [h.length_head, h.length_head])
  obtain ⟨owner, count, sources, records⟩ := l
  obtain ⟨owner', count', sources', records'⟩ := l'
  obtain ⟨rfl, rfl⟩ := h.head_inj hhead
  have hsources (i : Fin maxMembers) : sources i = sources' i := by
    by_cases hi : i.val < count.toNat
    · have hbytes := (hsource i.val hi).eq_of_length (hsource' i.val hi)
        (by rw [AccountAddress.length_toBytes, AccountAddress.length_toBytes])
      rw [Ledger.slot_val] at hbytes
      exact AccountAddress.toBytes_injective hbytes
    · exact (hl i hi).1.trans (hl' i hi).1.symm
  have hrecords (i : Fin maxMembers) : records i = records' i := by
    by_cases hi : i.val < count.toNat
    · have hbytes := (hrecord i.val hi).eq_of_length (hrecord' i.val hi)
        (by rw [Record.length_encode, Record.length_encode])
      rw [Ledger.slot_val] at hbytes
      exact Record.encode_inj hbytes
    · exact (hl i hi).2.trans (hl' i hi).2.symm
  rw [funext hsources, funext hrecords]

/-- **A layout that reads** the states of a form is lawful. -/
theorem lawful : k.Lawful f.encode f.recordsAt where
  validate_iff := h.validate_iff
  injective hl hl' heq := h.encode_inj hl.idle hl'.idle heq
  owner_eq {l} hl := by
    obtain ⟨hframes, -, -⟩ := (Format.encode_eq_iff (f := f) (l := l) h.length_head).mp rfl
    have howner := hframes.head_at.trans (h.owner_at l.owner l.count)
    rw [Nat.zero_add] at howner
    have hfits := howner.1
    have hread := howner.2
    rw [length_bytesN] at hfits hread
    exact (arrayAt_ok_iff (h.length_lt hframes hl.count_le) hfits).mpr hread.symm
  source_eq {l i} hl hi := by
    obtain ⟨hframes, hsource, -⟩ := (Format.encode_eq_iff (f := f) (l := l) h.length_head).mp rfl
    exact (h.source_ok_iff hframes hl.count_le hi).mpr (hsource i hi)
  record_eq {l i} hl hi := by
    obtain ⟨hframes, -, hrecord⟩ := (Format.encode_eq_iff (f := f) (l := l) h.length_head).mp rfl
    exact (h.record_ok_iff hframes hl.count_le hi).mpr (hrecord i hi)
  records_eq {l} hl := by
    obtain ⟨hframes, -, -⟩ := (Format.encode_eq_iff (f := f) (l := l) h.length_head).mp rfl
    exact h.records_eq hframes hl.count_le
  records_lt {l i} hl hi := by
    have hsize := h.size_lt hl.count_le
    unfold Format.size recordBytes at hsize
    unfold recordBytes
    omega
  bindings_lt {i} hi := by
    have hsize : f.size 16 < 2 ^ 32 := h.size_lt (by decide)
    have hsixteen : (16 : U8).toNat = 16 := rfl
    unfold Format.size Format.recordsAt at hsize
    have hmax : maxMembers = 16 := rfl
    rw [hsixteen] at hsize
    rw [h.bindings_eq]
    omega
  patch_source {l i} a hl hi := by
    rw [h.bindings_eq]
    have hholds := (Format.encode_eq_iff (f := f) (l := l) h.length_head).mp rfl
    exact ((Format.encode_eq_iff h.length_head).mpr
      (hholds.withSource hl h.length_head hi a)).symm
  patch_record {l i} r hl hi := by
    have hholds := (Format.encode_eq_iff (f := f) (l := l) h.length_head).mp rfl
    exact ((Format.encode_eq_iff h.length_head).mpr
      (hholds.withRecord hl h.length_head hi r)).symm

end Reads

end

end Layout

end AvmSdk.Audit
