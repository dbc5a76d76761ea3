import AvmSdk.Sdk.Input.Batch
import AvmSdk.Wire.Layout

/-!
# Deploy envelopes and the ends of inputs

`MessageInput.deploy`, the reader of the `ACDP` envelope in the body of a deploy message, and the
property that it shares with the two frame decoders: an accepted input determines its own end.

* `deployEnvelope_ok_iff`: an accepted body is a header and its sections, and nothing else.
* `deployEnvelope_length`: an accepted envelope is as long as its header announces.
* `RejectsNeighbours`: a decoder rejects every proper prefix and every proper extension of what
  it accepts. `frames_rejectNeighbours` proves it of all three decoders.
* `deploy_ok_iff`: the bodies that `deploy` accepts, and the fields that it returns.
-/

namespace AvmSdk.Sdk

open Wire Wire.Cursor

/-- The tag `b"ACDP"`. -/
def acdpMagic : Bytes := [0x41, 0x43, 0x44, 0x50]

/-- Source: `input.rs` `DeployInput` -/
structure DeployInput where
  packageId : Bytes32
  ownerId : Bytes32
  uiName : Bytes
  salt : Bytes
  initData : Bytes
deriving DecidableEq

section

variable [Target]

/-- `tail.take(usize::from(read_u16_at(body, offset)?))` -/
def takeU16At (body : Bytes) (offset : ℕ) : ReadM Bytes := do
  let length ← readU16At body offset
  Reader.take length.toNat

/-- `tail.take(to_usize(read_u32_at(body, offset)?)?)` -/
def takeU32At (body : Bytes) (offset : ℕ) : ReadM Bytes := do
  let length ← readU32At body offset
  let length ← Reader.toUsize length
  Reader.take length

/-- The sections behind the header of the envelope, with the ABI section of the given length. -/
def readDeployTail (body : Bytes) (flags : U16) (abiLen : ℕ) : ReadM (Bytes × Bytes × Bytes) := do
  let uiName ← takeU16At body 264
  let salt ← takeU16At body 266
  let initData ← takeU32At body 268
  let _ ← takeU32At body 272
  let _ ← takeU32At body 276
  let _ ← Reader.take abiLen
  let _ ← takeU16At body 284
  let _ ← optionally (flags &&& 0x20 ≠ 0) (Reader.take 64)
  pure (uiName, salt, initData)

/-- An envelope without an ABI section has no ABI hash. -/
def checkAbiHash (body : Bytes) (abiLen : ℕ) : Except DecodeError Unit :=
  if abiLen = 0 then do
    let abiHash ← readFixedAt 32 body 232
    failIf (abiHash ≠ zeros 32) .invalidValue
  else .ok ()

/-- The envelope in the body of a deploy message.
Source: `input.rs` `MessageInput::deploy`, after the test of `is_deploy` -/
def deployEnvelope (body : Bytes) : Except DecodeError DeployInput := do
  let tail ← Reader.withPosition body 288
  let magic ← readFixedAt 4 body 0
  failIf (magic.val ≠ acdpMagic) .badMagic
  let flags ← readU16At body 4
  failIf (flags &&& ~~~0x3f ≠ 0) .unknownTag
  let reserved ← readU16At body 6
  failIf (reserved ≠ 0) .nonZeroReserved
  let reserved ← readU16At body 286
  failIf (reserved ≠ 0) .nonZeroReserved
  let ownerKey ← readFixedAt 32 body 200
  failIf ((flags &&& 0x10 ≠ 0 ↔ ownerKey = zeros 32) ∨ flags &&& 8 ≠ 0 ∧ flags &&& 0x10 ≠ 0)
    .invalidValue
  let abiLen ← readU32At body 280
  let abiLen ← Reader.toUsize abiLen
  checkAbiHash body abiLen
  let ((uiName, salt, initData), tail) ← readDeployTail body flags abiLen tail
  tail.finish
  let packageId ← readFixedAt 32 body 40
  let ownerId ← readFixedAt 32 body 136
  pure ⟨packageId, ownerId, uiName, salt, initData⟩

/-- Source: `input.rs` `MessageInput::deploy` -/
def MessageInput.deploy (self : MessageInput) : Except DecodeError DeployInput := do
  failIf (¬ self.message.isDeploy) .invalidValue
  deployEnvelope self.message.body

/-! ## The length of an envelope -/

/-- A field of a byte string is a field of every extension. -/
theorem readWordAt_mono {w : ℕ} {u v : Bytes} (huv : u <+: v) {offset : ℕ} {x : BitVec w}
    (h : readWordAt w u offset = .ok x) : readWordAt w v offset = .ok x := by
  obtain ⟨t, rfl⟩ := huv
  simp only [readWordAt, bind_ok_iff, pure_ok_iff] at h ⊢
  obtain ⟨a, ha, hx⟩ := h
  rw [readFixedAt_ok_iff] at ha
  obtain ⟨⟨hmax, hle⟩, hpart⟩ := ha
  refine ⟨a, ?_, hx⟩
  rw [readFixedAt_ok_iff]
  refine ⟨⟨hmax, by rw [List.length_append]; omega⟩, ?_⟩
  rw [List.drop_append_of_le_length (by omega), List.take_append_of_le_length
    (by rw [List.length_drop]; omega), hpart]

/-- `takeU16At` takes the number of bytes that the field announces. -/
theorem reads_takeU16At (body : Bytes) (offset : ℕ) :
    Reads (takeU16At body offset)
      (fun v w => ∃ n, readU16At body offset = .ok n ∧ v = w ∧ w.length = n.toNat) := by
  refine ((Reads.lift _).bind fun n : U16 => reads_take n.toNat).congr fun v w => ?_
  constructor
  · rintro ⟨n, u, v', ⟨hn, rfl⟩, ⟨rfl, hlen⟩, rfl⟩
    exact ⟨n, hn, rfl, hlen⟩
  · rintro ⟨n, hn, rfl, hlen⟩
    exact ⟨n, [], v, ⟨hn, rfl⟩, ⟨rfl, hlen⟩, rfl⟩

/-- `takeU32At` takes the number of bytes that the field announces. -/
theorem reads_takeU32At (body : Bytes) (offset : ℕ) :
    Reads (takeU32At body offset)
      (fun v w => ∃ n, readU32At body offset = .ok n ∧ v = w ∧ w.length = n.toNat) := by
  refine ((Reads.lift _).bind fun n => (Reads.lift _).bind fun m => reads_take m).congr
    fun v w => ?_
  constructor
  · rintro ⟨n, u, v', ⟨hn, rfl⟩, ⟨m, u₁, v₁, ⟨hm, rfl⟩, ⟨rfl, hlen⟩, rfl⟩, rfl⟩
    rw [toUsize_ok_iff] at hm
    exact ⟨n, hn, rfl, hlen.trans hm.symm⟩
  · rintro ⟨n, hn, rfl, hlen⟩
    exact ⟨n, [], v, ⟨hn, rfl⟩, ⟨n.toNat, [], v, ⟨toUsize_ok_iff.mpr rfl, rfl⟩, ⟨rfl, hlen⟩, rfl⟩,
      rfl⟩

/-- The header fields that announce the sections behind the header. -/
structure EnvelopeLengths where
  flags : U16
  uiName : U16
  salt : U16
  initData : U32
  code : U32
  data : U32
  abi : U32
  metadata : U16

/-- The fields as they stand in a body. -/
structure EnvelopeLengths.ReadFrom (n : EnvelopeLengths) (body : Bytes) : Prop where
  flags : readU16At body 4 = .ok n.flags
  uiName : readU16At body 264 = .ok n.uiName
  salt : readU16At body 266 = .ok n.salt
  initData : readU32At body 268 = .ok n.initData
  code : readU32At body 272 = .ok n.code
  data : readU32At body 276 = .ok n.data
  abi : readU32At body 280 = .ok n.abi
  metadata : readU16At body 284 = .ok n.metadata

/-- The announced length of everything behind the header. -/
def EnvelopeLengths.total (n : EnvelopeLengths) : ℕ :=
  n.uiName.toNat + n.salt.toNat + n.initData.toNat + n.code.toNat + n.data.toNat + n.abi.toNat +
    n.metadata.toNat + (if n.flags &&& 0x20 ≠ 0 then 64 else 0)

/-- A body and an extension of it announce the same lengths. -/
theorem EnvelopeLengths.ReadFrom.unique {n n' : EnvelopeLengths} {u v : Bytes}
    (h : n.ReadFrom u) (h' : n'.ReadFrom v) (huv : u <+: v) : n = n' := by
  have hsame : ∀ {w offset : ℕ} {x y : BitVec w}, readWordAt w u offset = .ok x →
      readWordAt w v offset = .ok y → x = y := by
    intro w offset x y hx hy
    rw [readWordAt_mono huv hx] at hy
    exact Except.ok.inj hy
  obtain ⟨flags, uiName, salt, initData, code, data, abi, metadata⟩ := n
  obtain ⟨flags', uiName', salt', initData', code', data', abi', metadata'⟩ := n'
  rw [EnvelopeLengths.mk.injEq]
  exact ⟨hsame h.flags h'.flags, hsame h.uiName h'.uiName, hsame h.salt h'.salt,
    hsame h.initData h'.initData, hsame h.code h'.code, hsame h.data h'.data, hsame h.abi h'.abi,
    hsame h.metadata h'.metadata⟩

/-- The sections behind the header of an envelope. -/
structure Sections where
  uiName : Bytes
  salt : Bytes
  initData : Bytes
  code : Bytes
  descriptor : Bytes
  abi : Bytes
  trailing : Bytes
  signature : Bytes

/-- The sections one after the other. -/
def Sections.toBytes (s : Sections) : Bytes :=
  [s.uiName, s.salt, s.initData, s.code, s.descriptor, s.abi, s.trailing, s.signature].flatten

/-- The sections have the announced lengths. -/
structure EnvelopeLengths.Announces (n : EnvelopeLengths) (s : Sections) : Prop where
  uiName : s.uiName.length = n.uiName.toNat
  salt : s.salt.length = n.salt.toNat
  initData : s.initData.length = n.initData.toNat
  code : s.code.length = n.code.toNat
  descriptor : s.descriptor.length = n.data.toNat
  abi : s.abi.length = n.abi.toNat
  trailing : s.trailing.length = n.metadata.toNat
  signature : s.signature.length = if n.flags &&& 0x20 ≠ 0 then 64 else 0

omit [Target] in
/-- The sections have the length that is announced. -/
theorem EnvelopeLengths.Announces.length_toBytes {n : EnvelopeLengths} {s : Sections}
    (h : n.Announces s) : s.toBytes.length = n.total := by
  simp only [Sections.toBytes, List.length_flatten, List.map_cons, List.map_nil, List.sum_cons,
    List.sum_nil, h.uiName, h.salt, h.initData, h.code, h.descriptor, h.abi, h.trailing,
    h.signature, total]
  omega

/-- `readDeployTail` reads the sections that the header announces. -/
theorem reads_readDeployTail {body : Bytes} {n : EnvelopeLengths} (hn : n.ReadFrom body) :
    Reads (readDeployTail body n.flags n.abi.toNat) (fun v w => ∃ s : Sections, n.Announces s ∧
      v = (s.uiName, s.salt, s.initData) ∧ w = s.toBytes) := by
  refine ((reads_takeU16At body 264).bind fun uiName =>
    (reads_takeU16At body 266).bind fun salt => (reads_takeU32At body 268).bind fun initData =>
    (reads_takeU32At body 272).bind fun _ => (reads_takeU32At body 276).bind fun _ =>
    (reads_take n.abi.toNat).bind fun _ => (reads_takeU16At body 284).bind fun _ =>
    ((reads_take 64).optional (n.flags &&& 0x20 ≠ 0)).bind fun _ =>
      Reads.pure (uiName, salt, initData)).congr fun v w => ?_
  constructor
  · rintro ⟨uiName, v₀, t₀, ⟨_, h₀, rfl, l₀⟩, h, w₀⟩
    obtain ⟨salt, v₁, t₁, ⟨_, h₁, rfl, l₁⟩, h, w₁⟩ := h
    obtain ⟨initData, v₂, t₂, ⟨_, h₂, rfl, l₂⟩, h, w₂⟩ := h
    obtain ⟨code, v₃, t₃, ⟨_, h₃, rfl, l₃⟩, h, w₃⟩ := h
    obtain ⟨descriptor, v₄, t₄, ⟨_, h₄, rfl, l₄⟩, h, w₄⟩ := h
    obtain ⟨abi, v₅, t₅, ⟨rfl, l₅⟩, h, w₅⟩ := h
    obtain ⟨trailing, v₆, t₆, ⟨_, h₆, rfl, l₆⟩, h, w₆⟩ := h
    obtain ⟨signature, v₇, t₇, hsignature, ⟨hv, w₈⟩, w₇⟩ := h
    obtain rfl := Except.ok.inj (hn.uiName.symm.trans h₀)
    obtain rfl := Except.ok.inj (hn.salt.symm.trans h₁)
    obtain rfl := Except.ok.inj (hn.initData.symm.trans h₂)
    obtain rfl := Except.ok.inj (hn.code.symm.trans h₃)
    obtain rfl := Except.ok.inj (hn.data.symm.trans h₄)
    obtain rfl := Except.ok.inj (hn.metadata.symm.trans h₆)
    have l₇ : v₇.length = if n.flags &&& 0x20 ≠ 0 then 64 else 0 := by
      cases signature with
      | none =>
          obtain ⟨hc, rfl⟩ := hsignature
          rw [if_neg hc, List.length_nil]
      | some signature =>
          obtain ⟨hc, -, hlen⟩ := hsignature
          rw [if_pos hc, hlen]
    refine ⟨⟨uiName, salt, initData, code, descriptor, abi, trailing, v₇⟩,
      ⟨l₀, l₁, l₂, l₃, l₄, l₅, l₆, l₇⟩, hv, ?_⟩
    rw [w₀, w₁, w₂, w₃, w₄, w₅, w₆, w₇, w₈]
    rfl
  · rintro ⟨s, hs, rfl, rfl⟩
    refine ⟨_, _, _, ⟨_, hn.uiName, rfl, hs.uiName⟩, ⟨_, _, _, ⟨_, hn.salt, rfl, hs.salt⟩,
      ⟨_, _, _, ⟨_, hn.initData, rfl, hs.initData⟩, ⟨_, _, _, ⟨_, hn.code, rfl, hs.code⟩,
      ⟨_, _, _, ⟨_, hn.data, rfl, hs.descriptor⟩, ⟨_, _, _, ⟨rfl, hs.abi⟩,
      ⟨_, _, _, ⟨_, hn.metadata, rfl, hs.trailing⟩,
      ⟨if n.flags &&& 0x20 ≠ 0 then some s.signature else none, s.signature, [], ?_, ⟨rfl, rfl⟩,
        rfl⟩, rfl⟩, rfl⟩, rfl⟩, rfl⟩, rfl⟩, rfl⟩, rfl⟩
    have hsignature := hs.signature
    by_cases hc : n.flags &&& 0x20 ≠ 0
    · rw [if_pos hc] at hsignature ⊢
      exact ⟨hc, rfl, hsignature⟩
    · rw [if_neg hc] at hsignature ⊢
      exact ⟨hc, List.length_eq_zero_iff.mp hsignature⟩

/-! ## The form of an envelope -/

/-- The fields of the header that announce the sections: `u16` at 264, 266 and 284, `u32` at 268,
272, 276 and 280, and the flags at 4. -/
def EnvelopeLengths.ofHeader (header : Bytes) : EnvelopeLengths where
  flags := ofLe 16 (header.extract 4 6)
  uiName := ofLe 16 (header.extract 264 266)
  salt := ofLe 16 (header.extract 266 268)
  initData := ofLe 32 (header.extract 268 272)
  code := ofLe 32 (header.extract 272 276)
  data := ofLe 32 (header.extract 276 280)
  abi := ofLe 32 (header.extract 280 284)
  metadata := ofLe 16 (header.extract 284 286)

/-- **A header of an envelope.** -/
structure EnvelopeHeader (header : Bytes) : Prop where
  length_eq : header.length = 288
  magic : header.extract 0 4 = acdpMagic
  flags_known : (EnvelopeLengths.ofHeader header).flags &&& ~~~0x3f = 0
  reserved : header.extract 6 8 = (zeros 2).val
  reserved_end : header.extract 286 288 = (zeros 2).val
  ownerKey_iff : header.extract 200 232 ≠ (zeros 32).val ↔
    (EnvelopeLengths.ofHeader header).flags &&& 0x10 ≠ 0
  ownerKey_alone : ¬ ((EnvelopeLengths.ofHeader header).flags &&& 8 ≠ 0 ∧
    (EnvelopeLengths.ofHeader header).flags &&& 0x10 ≠ 0)
  abiHash : (EnvelopeLengths.ofHeader header).abi.toNat = 0 →
    header.extract 232 264 = (zeros 32).val

section

variable {body : Bytes}

/-- The fields of a body that holds a header are read. -/
theorem readFrom_ofHeader (hmax : body.length ≤ usizeMax) (hlen : 288 ≤ body.length) :
    (EnvelopeLengths.ofHeader body).ReadFrom body where
  flags := readWordAt_eq hmax (by omega)
  uiName := readWordAt_eq hmax (by omega)
  salt := readWordAt_eq hmax (by omega)
  initData := readWordAt_eq hmax (by omega)
  code := readWordAt_eq hmax (by omega)
  data := readWordAt_eq hmax (by omega)
  abi := readWordAt_eq hmax (by omega)
  metadata := readWordAt_eq hmax (by omega)

omit [Target] in
/-- What is announced stands in the header. -/
theorem EnvelopeLengths.ofHeader_extract (body : Bytes) :
    ofHeader (body.extract 0 288) = ofHeader body := by
  have h (p q : ℕ) (hq : q ≤ 288) : (body.extract 0 288).extract p q = body.extract p q :=
    extract_extract hq
  simp only [ofHeader, h, Nat.reduceLeDiff]

omit [Target] in
/-- The tests of a body that is long enough for a header. -/
theorem envelopeHeader_iff (hlen : 288 ≤ body.length) : EnvelopeHeader (body.extract 0 288) ↔
    body.extract 0 4 = acdpMagic ∧
      (EnvelopeLengths.ofHeader body).flags &&& ~~~0x3f = 0 ∧
      body.extract 6 8 = (zeros 2).val ∧ body.extract 286 288 = (zeros 2).val ∧
      (body.extract 200 232 ≠ (zeros 32).val ↔
        (EnvelopeLengths.ofHeader body).flags &&& 0x10 ≠ 0) ∧
      ¬ ((EnvelopeLengths.ofHeader body).flags &&& 8 ≠ 0 ∧
        (EnvelopeLengths.ofHeader body).flags &&& 0x10 ≠ 0) ∧
      ((EnvelopeLengths.ofHeader body).abi.toNat = 0 →
        body.extract 232 264 = (zeros 32).val) := by
  have h (p q : ℕ) (hq : q ≤ 288) : (body.extract 0 288).extract p q = body.extract p q :=
    extract_extract hq
  constructor
  · rintro ⟨-, hmagic, hflags, hreserved, hend, hkey, halone, habi⟩
    rw [EnvelopeLengths.ofHeader_extract] at hflags hkey halone habi
    rw [h _ _ (by decide)] at hmagic hreserved hend hkey habi
    exact ⟨hmagic, hflags, hreserved, hend, hkey, halone, habi⟩
  · rintro ⟨hmagic, hflags, hreserved, hend, hkey, halone, habi⟩
    refine ⟨by rw [length_extract_of_le hlen], ?_, ?_, ?_, ?_, ?_, ?_, ?_⟩
    · rw [h _ _ (by decide), hmagic]
    · rw [EnvelopeLengths.ofHeader_extract, hflags]
    · rw [h _ _ (by decide), hreserved]
    · rw [h _ _ (by decide), hend]
    · rw [h _ _ (by decide), EnvelopeLengths.ofHeader_extract, hkey]
    · rw [EnvelopeLengths.ofHeader_extract]
      exact halone
    · rw [EnvelopeLengths.ofHeader_extract, h _ _ (by decide)]
      exact habi

end

/-- What the reader makes of an envelope. -/
structure DeployInput.IsRead (d : DeployInput) (header : Bytes) (s : Sections) : Prop where
  packageId : d.packageId.val = header.extract 40 72
  ownerId : d.ownerId.val = header.extract 136 168
  uiName : d.uiName = s.uiName
  salt : d.salt = s.salt
  initData : d.initData = s.initData

omit [Target] in
/-- A reserved word is zero if its bytes are. -/
theorem ofLe_eq_zero_iff {u : Bytes} (hu : u.length = 2) : ofLe 16 u = 0 ↔ u = (zeros 2).val := by
  have hzero : toLe (0 : U16) = (zeros 2).val := rfl
  constructor
  · intro h
    rw [← hzero, ← h, toLe_ofLe (by rw [hu])]
  · rintro rfl
    rfl

/-- The reader of the sections, up to the end of a body. -/
theorem readDeployTail_iff {body : Bytes} (hmax : body.length ≤ usizeMax) (hlen : 288 ≤ body.length)
    {v : Bytes × Bytes × Bytes} :
    (∃ r, readDeployTail body (EnvelopeLengths.ofHeader body).flags
        (EnvelopeLengths.ofHeader body).abi.toNat ⟨body, 288⟩ = .ok (v, r) ∧ r.finish = .ok ()) ↔
      ∃ s : Sections, (EnvelopeLengths.ofHeader body).Announces s ∧
        v = (s.uiName, s.salt, s.initData) ∧ body.drop 288 = s.toBytes :=
  reads_run_finish (reads_readDeployTail (readFrom_ofHeader hmax hlen))
    (show Sound (Reader.mk body 288) from ⟨hlen, hmax⟩) v

/-- The test of the ABI hash. -/
theorem checkAbiHash_ok_iff {body : Bytes} (hmax : body.length ≤ usizeMax)
    (hlen : 288 ≤ body.length) {n : ℕ} {u : Unit} : checkAbiHash body n = .ok u ↔
      (n = 0 → body.extract 232 264 = (zeros 32).val) := by
  have hfixed : ∃ a, readFixedAt 32 body 232 = .ok a ∧ a.val = body.extract 232 264 :=
    exists_readFixedAt hmax (by omega)
  obtain ⟨hash, hhash, hval⟩ := hfixed
  unfold checkAbiHash
  by_cases h : n = 0
  · rw [if_pos h, hhash, ok_bind, failIf_ok_iff, not_not, Subtype.ext_iff, hval]
    exact ⟨fun hz _ => hz, fun hz => hz h⟩
  · rw [if_neg h]
    exact ⟨fun _ hno => absurd hno h, fun _ => rfl⟩

omit [Target] in
/-- The tests of the key of the owner. -/
theorem ownerKey_iff {flags key alone : Prop} : ¬ ((flags ↔ key) ∨ alone) ↔
    (¬ key ↔ flags) ∧ ¬ alone := by
  rw [not_or]
  tauto

/-- The steps of the reader in a body that is long enough for a header. -/
theorem deployEnvelope_steps {body : Bytes} (hmax : body.length ≤ usizeMax)
    (hlen : 288 ≤ body.length) {d : DeployInput} : deployEnvelope body = .ok d ↔
      EnvelopeHeader (body.extract 0 288) ∧ ∃ v, (∃ r, readDeployTail body
        (EnvelopeLengths.ofHeader body).flags (EnvelopeLengths.ofHeader body).abi.toNat
          ⟨body, 288⟩ = .ok (v, r) ∧ r.finish = .ok ()) ∧
        d.packageId.val = body.extract 40 72 ∧ d.ownerId.val = body.extract 136 168 ∧
          v = (d.uiName, d.salt, d.initData) := by
  have hn := readFrom_ofHeader hmax hlen
  have hfixed (n o : ℕ) (h : o + n ≤ 288) :
      ∃ a, readFixedAt n body o = .ok a ∧ a.val = body.extract o (o + n) :=
    exists_readFixedAt hmax (by omega)
  obtain ⟨magic, hmagic, hmagicval⟩ := hfixed 4 0 (by decide)
  obtain ⟨key, hkey, hkeyval⟩ := hfixed 32 200 (by decide)
  obtain ⟨packageId, hpackage, hpackageval⟩ := hfixed 32 40 (by decide)
  obtain ⟨ownerId, howner, hownerval⟩ := hfixed 32 136 (by decide)
  have hreserved : readU16At body 6 = .ok (ofLe 16 (body.extract 6 8)) :=
    readWordAt_eq hmax (by omega)
  have hend : readU16At body 286 = .ok (ofLe 16 (body.extract 286 288)) :=
    readWordAt_eq hmax (by omega)
  have hkeyzero : key = zeros 32 ↔ body.extract 200 232 = (zeros 32).val := by
    rw [Subtype.ext_iff, hkeyval]
  have hzero (o : ℕ) (h : o + 2 ≤ 288) :
      ofLe 16 (body.extract o (o + 2)) = 0 ↔ body.extract o (o + 2) = (zeros 2).val :=
    ofLe_eq_zero_iff (by rw [length_extract_of_le (by omega)]; omega)
  have hzero6 := hzero 6 (by decide)
  have hzero286 := hzero 286 (by decide)
  have hposition : Reader.withPosition body 288 = .ok ⟨body, 288⟩ := by
    rw [Reader.withPosition, failIf, if_neg (by omega)]
    rfl
  rw [envelopeHeader_iff hlen]
  simp only [deployEnvelope, hposition, hmagic, hn.flags, hreserved, hend, hkey, hn.abi, hpackage,
    howner, ok_bind, bind_ok_iff, failIf_ok_iff, exists_const, toUsize_ok_iff, exists_eq_left',
    pure_ok_iff, checkAbiHash_ok_iff hmax hlen, hmagicval, hkeyzero, hzero6, hzero286, not_not,
    ne_eq, ownerKey_iff, and_assoc]
  refine and_congr_right fun _ => and_congr_right fun _ => and_congr_right fun _ =>
    and_congr_right fun _ => and_congr_right fun _ => and_congr_right fun _ =>
    and_congr_right fun _ => ?_
  constructor
  · rintro ⟨⟨v, r⟩, hrun, _, hfin, rfl⟩
    exact ⟨v, ⟨r, hrun, hfin⟩, hpackageval, hownerval, rfl⟩
  · rintro ⟨v, ⟨r, hrun, hfin⟩, hp, ho, rfl⟩
    refine ⟨_, hrun, (), hfin, ?_⟩
    obtain ⟨_, _, _, _, _⟩ := d
    rw [DeployInput.mk.injEq]
    exact ⟨Subtype.ext (hpackageval.trans hp.symm), Subtype.ext (hownerval.trans ho.symm), rfl, rfl,
      rfl⟩

omit [Target] in
/-- A header is the front of a body. -/
theorem EnvelopeHeader.front_eq {header body rest : Bytes} (h : EnvelopeHeader header)
    (hbody : body = header ++ rest) : body.extract 0 288 = header ∧ body.drop 288 = rest := by
  rw [List.extract_eq_take_drop, List.drop_zero, Nat.sub_zero, hbody,
    List.take_left' h.length_eq, List.drop_left' h.length_eq]
  exact ⟨rfl, rfl⟩

/-- **An envelope** is read if it has the form of one. -/
theorem deployEnvelope_ok_iff {body : Bytes} (hmax : body.length ≤ usizeMax) {d : DeployInput} :
    deployEnvelope body = .ok d ↔ ∃ header s, EnvelopeHeader header ∧
      (EnvelopeLengths.ofHeader header).Announces s ∧ body = header ++ s.toBytes ∧
        d.IsRead header s := by
  have hpart (p q : ℕ) (hq : q ≤ 288) : (body.extract 0 288).extract p q = body.extract p q :=
    extract_extract hq
  constructor
  · intro h
    have hlen : 288 ≤ body.length := by
      simp only [deployEnvelope, Reader.withPosition, bind_ok_iff, failIf_ok_iff] at h
      obtain ⟨-, ⟨-, hno, -⟩, -⟩ := h
      omega
    obtain ⟨hheader, v, hrun, hpackage, howner, rfl⟩ := (deployEnvelope_steps hmax hlen).mp h
    obtain ⟨s, hs, hv, hdrop⟩ := (readDeployTail_iff hmax hlen).mp hrun
    obtain ⟨huiName, hsalt, hinitData⟩ : d.uiName = s.uiName ∧ d.salt = s.salt ∧
        d.initData = s.initData := by
      rw [Prod.mk.injEq, Prod.mk.injEq] at hv
      exact hv
    refine ⟨body.extract 0 288, s, hheader, ?_, ?_, ?_, ?_, huiName, hsalt, hinitData⟩
    · rw [EnvelopeLengths.ofHeader_extract]
      exact hs
    · rw [← hdrop, List.extract_eq_take_drop, List.drop_zero, Nat.sub_zero, List.take_append_drop]
    · rw [hpart _ _ (by decide), hpackage]
    · rw [hpart _ _ (by decide), howner]
  · rintro ⟨header, s, hheader, hs, hbody, hread⟩
    have hlen : 288 ≤ body.length := by
      rw [hbody, List.length_append, hheader.length_eq]
      omega
    obtain ⟨hfront, hdrop⟩ := hheader.front_eq hbody
    rw [← hfront] at hheader hs hread
    rw [EnvelopeLengths.ofHeader_extract] at hs
    have hpackage := hread.packageId
    have howner := hread.ownerId
    rw [hpart _ _ (by decide)] at hpackage howner
    rw [deployEnvelope_steps hmax hlen]
    refine ⟨hheader, _, (readDeployTail_iff hmax hlen).mpr ⟨s, hs, rfl, hdrop⟩, hpackage, howner, ?_⟩
    rw [hread.uiName, hread.salt, hread.initData]

/-- An accepted envelope is as long as its header announces. -/
theorem deployEnvelope_length {b : Slice} {d : DeployInput} (h : deployEnvelope b.bytes = .ok d) :
    ∃ n : EnvelopeLengths, n.ReadFrom b.bytes ∧ b.bytes.length = 288 + n.total := by
  obtain ⟨header, s, hheader, hs, hbody, -⟩ := (deployEnvelope_ok_iff b.length_le).mp h
  have hlength : b.bytes.length = 288 + (EnvelopeLengths.ofHeader header).total := by
    rw [hbody, List.length_append, hheader.length_eq, hs.length_toBytes]
  rw [← (hheader.front_eq hbody).1, EnvelopeLengths.ofHeader_extract] at hlength
  exact ⟨_, readFrom_ofHeader b.length_le (by omega), hlength⟩

/-! ## Inputs determine their end -/

/-- The inputs that a decoder accepts, of those that a slice can hold. -/
def Accepts {α : Type} (decode : Bytes → Except DecodeError α) (bytes : Bytes) : Prop :=
  bytes.length ≤ usizeMax ∧ ∃ a, decode bytes = .ok a

/-- A decoder rejects every proper prefix and every proper extension of what it accepts. -/
def RejectsNeighbours {α : Type} (decode : Bytes → Except DecodeError α) : Prop :=
  ∀ (b : Slice) (a : α), decode b.bytes = .ok a →
    (∀ p, p <+: b.bytes → p ≠ b.bytes → ∃ e, decode p = .error e) ∧
    (∀ x, x ≠ [] → (b.bytes ++ x).length ≤ usizeMax → ∃ e, decode (b.bytes ++ x) = .error e)

omit [Target] in
/-- What is not accepted is rejected with an error. -/
theorem error_of_not_ok {α : Type} {x : Except DecodeError α} (h : ∀ a, x ≠ .ok a) :
    ∃ e, x = .error e := by
  cases x with
  | error e => exact ⟨e, rfl⟩
  | ok a => exact absurd rfl (h a)

/-- A decoder whose accepted inputs are prefix-free rejects the neighbours of each. -/
theorem rejectsNeighbours_of_prefixFree {α : Type} {decode : Bytes → Except DecodeError α}
    (h : PrefixFree (Accepts decode)) : RejectsNeighbours decode := by
  intro b a hb
  have hbmax := b.length_le
  constructor
  · intro p hp hne
    apply error_of_not_ok
    intro a' ha'
    have hpmax : p.length ≤ usizeMax := hp.length_le.trans hbmax
    exact hne (h p b.bytes ⟨hpmax, a', ha'⟩ ⟨hbmax, a, hb⟩ hp)
  · intro x hx hmax
    apply error_of_not_ok
    intro a' ha'
    have heq := h b.bytes _ ⟨hbmax, a, hb⟩ ⟨hmax, a', ha'⟩ (List.prefix_append _ _)
    rw [eq_comm, List.append_right_eq_self] at heq
    exact hx heq

/-- The accepted message frames are prefix-free: each is a word of the reader of the frame. -/
theorem accepts_decodeMessageInput_prefixFree : PrefixFree (Accepts decodeMessageInput) := by
  intro u v ⟨hu, x, hx⟩ ⟨hv, y, hy⟩ huv
  obtain ⟨f, hf, hfwf, -⟩ := (decodeMessageInput_frame_iff ⟨u, hu⟩ x).mp hx
  obtain ⟨g, hg, hgwf, -⟩ := (decodeMessageInput_frame_iff ⟨v, hv⟩ y).mp hy
  exact reads_readMessageFrame.words_are_prefixFree (S := fun w => w.length ≤ usizeMax) Reader.new
    (fun w hw => ⟨sound_new hw, rest_new w⟩) u v ⟨hu, f, hfwf, hf.symm⟩ ⟨hv, g, hgwf, hg.symm⟩ huv

/-- The accepted batch frames are prefix-free: each is a word of the reader of the frame. -/
theorem accepts_decodeBatchInput_prefixFree : PrefixFree (Accepts decodeBatchInput) := by
  intro u v ⟨hu, x, hx⟩ ⟨hv, y, hy⟩ huv
  obtain ⟨hxu, hxf, -⟩ := (decodeBatchInput_ok_iff ⟨u, hu⟩ x).mp hx
  obtain ⟨hyv, hyf, -⟩ := (decodeBatchInput_ok_iff ⟨v, hv⟩ y).mp hy
  exact reads_readBatchInput.words_are_prefixFree (S := fun w => w.length ≤ usizeMax) Reader.new
    (fun w hw => ⟨sound_new hw, rest_new w⟩) u v ⟨hu, x, hxf, hxu.symm⟩ ⟨hv, y, hyf, hyv.symm⟩ huv

/-- The accepted envelopes are prefix-free: the header announces the length of the whole. -/
theorem accepts_deployEnvelope_prefixFree : PrefixFree (Accepts deployEnvelope) := by
  intro u v ⟨hu, d, hd⟩ ⟨hv, d', hd'⟩ huv
  obtain ⟨n, hn, hlen⟩ := deployEnvelope_length (b := ⟨u, hu⟩) hd
  obtain ⟨n', hn', hlen'⟩ := deployEnvelope_length (b := ⟨v, hv⟩) hd'
  have hsame : n = n' := hn.unique hn' huv
  subst hsame
  exact huv.eq_of_length (hlen.trans hlen'.symm)

omit [Target] in
/-- A message with another body. -/
def CanonicalMessage.withBody (m : CanonicalMessage) (body : Bytes) : CanonicalMessage :=
  match m with
  | internal message => .internal { message with body := body }
  | external message => .external { message with body := body }

omit [Target] in
/-- The body is the new one. -/
theorem CanonicalMessage.body_withBody (m : CanonicalMessage) (body : Bytes) :
    (m.withBody body).body = body := by
  cases m <;> rfl

/-- **Frames and deploy envelopes are self-delimiting**: message frames, batch frames, and the body
of any message as the envelope of a deployment. -/
theorem frames_rejectNeighbours :
    RejectsNeighbours decodeMessageInput ∧ RejectsNeighbours decodeBatchInput ∧
      ∀ x : MessageInput,
        RejectsNeighbours fun body => ({ x with message := x.message.withBody body }).deploy := by
  refine ⟨rejectsNeighbours_of_prefixFree accepts_decodeMessageInput_prefixFree,
    rejectsNeighbours_of_prefixFree accepts_decodeBatchInput_prefixFree, ?_⟩
  intro x
  apply rejectsNeighbours_of_prefixFree
  have henvelope : ∀ u, Accepts (fun body =>
      ({ x with message := x.message.withBody body }).deploy) u → Accepts deployEnvelope u := by
    intro u ⟨hu, d, hd⟩
    refine ⟨hu, d, ?_⟩
    simp only [MessageInput.deploy, bind_ok_iff, CanonicalMessage.body_withBody] at hd
    exact hd.choose_spec.2
  intro u v hu hv huv
  exact accepts_deployEnvelope_prefixFree u v (henvelope u hu) (henvelope v hv) huv

/-- **Deploy accepts exactly its format.** In a message whose body is a byte string that a slice can
hold, `deploy` succeeds if and only if the message is a deploy message and the body is a header and
the sections that it announces; then it gives the fields of the header and the first sections. -/
theorem deploy_ok_iff (x : MessageInput) (b : Slice) (d : DeployInput) :
    ({ x with message := x.message.withBody b.bytes }).deploy = .ok d ↔
      (x.message.withBody b.bytes).isDeploy ∧ ∃ header s, EnvelopeHeader header ∧
        (EnvelopeLengths.ofHeader header).Announces s ∧ b.bytes = header ++ s.toBytes ∧
          d.IsRead header s := by
  simp only [MessageInput.deploy, bind_ok_iff, failIf_ok_iff, exists_const, not_not,
    CanonicalMessage.body_withBody, deployEnvelope_ok_iff b.length_le]

end

end AvmSdk.Sdk
