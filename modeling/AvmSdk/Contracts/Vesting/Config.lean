import AvmSdk.Contracts.Vesting.Core

/-!
# The configuration of a vesting contract

The owner and the streams, fixed at the deployment.

* `Config.Valid`: what `Config::validate` accepts (`Config.validate_ok_iff`). The accounts at the
  ends of all lanes are different (`Config.Valid.destination_injective`), and the amounts add up to
  a word.
* `Config.decode_ok_iff`: the decoder accepts exactly the encodings of valid configurations.
* `Stream.releasedAt`: what a stream has released at a time.
-/

namespace AvmSdk.Vesting

open Wire Sdk Contracts Shares

/-- Source: `CONFIG_BYTES` -/
abbrev configBytes : ℕ := 1656

/-- Source: `ROW_BYTES` -/
abbrev rowBytes : ℕ := 200

/-- The field `endTime` is `end` of the source. Source: `Stream` -/
structure Stream where
  key : Bytes32
  payout : AccountAddress
  refund : AccountAddress
  total : U128
  start : U32
  cliff : U32
  endTime : U32
  step : U32
  revocable : Bool
deriving DecidableEq

namespace Stream

/-- Source: `Stream::default` -/
def default : Stream := ⟨zeros 32, zeroAddress, zeroAddress, 0, 0, 0, 0, 0, false⟩

/-- Source: `Stream::earned` -/
def earned (self : Stream) (now : U32) : ResultCode U128 :=
  vested self.total self.start self.cliff self.endTime self.step now

/-- The account at the end of a lane: 0 pays out, 1 refunds. -/
def destination (self : Stream) (kind : Fin 2) : AccountAddress :=
  if kind = 0 then self.payout else self.refund

/-- What the stream has released at a time. -/
def releasedAt (self : Stream) (now : U32) : ℕ :=
  (schedule self.start self.cliff self.endTime self.step).released self.total.toNat now.toNat

/-- The times and the amount make a schedule. -/
abbrev Timed (self : Stream) : Prop :=
  Vesting.Timed self.total self.start self.cliff self.endTime self.step

variable {s : Stream} {now later : U32}

/-- What has been earned is what has been released, -/
theorem earned_ok_iff (h : s.Timed) {v : U128} :
    s.earned now = .ok v ↔ v.toNat = s.releasedAt now := by
  unfold earned releasedAt
  rw [vested_ok_iff, and_iff_right h]

/-- and it is always found. -/
theorem exists_earned (h : s.Timed) (now : U32) :
    ∃ v, s.earned now = .ok v ∧ v.toNat = s.releasedAt now := by
  obtain ⟨v, hv⟩ := exists_vested h now
  exact ⟨v, hv, (earned_ok_iff h).mp hv⟩

/-- What is released is a part of the total. -/
theorem releasedAt_le (s : Stream) (now : U32) : s.releasedAt now ≤ s.total.toNat :=
  Schedule.released_le _ _ _

/-- **What is released never shrinks.** -/
theorem releasedAt_mono (s : Stream) (h : now ≤ later) : s.releasedAt now ≤ s.releasedAt later :=
  Schedule.released_mono _ _ (BitVec.le_def.mp h)

/-- The payee's lane goes to the payout account, -/
@[simp] theorem destination_zero (s : Stream) : s.destination 0 = s.payout := rfl

/-- and the owner's to the refund account. -/
@[simp] theorem destination_one (s : Stream) : s.destination 1 = s.refund := rfl

end Stream

/-- Source: `Config` -/
structure Config where
  owner : Bytes32
  fuel : U128
  count : U8
  streams : Fin maxStreams → Stream

namespace Config

/-- Source: `Config::total` -/
def total (self : Config) : ResultCode U128 :=
  (firstIndices maxStreams self.count.toNat).foldlM
    (fun v i => okOr (wordCheckedAdd v (self.streams i).total) eOverflow) 0

/-- The checks of one stream.
Source: `Config::validate`, `for (i, s) in self.streams[..n].iter().enumerate()` -/
def checkStream (self : Config) (i : Fin maxStreams) : ResultCode Unit := do
  let s := self.streams i
  failIf (s.key = zeros 32 ∨ ¬ nonzeroAddress s.payout ∨ ¬ nonzeroAddress s.refund ∨
    s.payout = s.refund) eArgs
  let _ ← s.earned s.start
  failIf (∃ j < i, ∃ a ∈ [(self.streams j).payout, (self.streams j).refund],
    a = s.payout ∨ a = s.refund) eArgs

/-- Source: `Config::validate` -/
def validate (self : Config) : ResultCode Unit := do
  failIf (self.owner = zeros 32 ∨ self.fuel = 0 ∨ self.count = 0 ∨
    maxStreams < self.count.toNat) eArgs
  let n := self.count.toNat
  (firstIndices maxStreams n).forM self.checkStream
  failIf (∃ i : Fin maxStreams, n ≤ i.val ∧ self.streams i ≠ Stream.default) eArgs
  let _ ← self.total
  pure ()

/-- Source: `Config::first_start` -/
def firstStart (self : Config) : U32 :=
  (wordsMin ((firstIndices maxStreams self.count.toNat).map fun i =>
    (self.streams i).start)).getD 0

/-- Source: `Config::encode`, `for (i, s) in self.streams.iter().enumerate()` -/
def encodeStream (s : Stream) : Bytes :=
  [s.key.val, s.payout.toBytes, s.refund.toBytes, toLe s.total, toLe s.start, toLe s.cliff,
    toLe s.endTime, toLe s.step, [if s.revocable then 1 else 0], (zeros 7).val].flatten

/-- The fields one after the other, as they stand in the buffer of zeros that the source fills.
Source: `Config::encode` -/
def encode (self : Config) : Bytes :=
  [self.owner.val, toLe self.fuel, [self.count], (zeros 7).val,
    (List.ofFn fun i => encodeStream (self.streams i)).flatten].flatten

/-- Source: `Config::decode`, `for (i, s) in c.streams.iter_mut().enumerate()` -/
def decodeStream [Target] (b : Bytes) (i : Fin maxStreams) : ResultCode Stream := do
  let o := 56 + i.val * rowBytes
  failIf (1 < b.getD (o + 192) 0 ∨ b.extract (o + 193) (o + 200) ≠ (zeros 7).val) eArgs
  let key ← arrayAt eArgs 32 b o
  let payout ← addressAt eArgs b (o + 32)
  let refund ← addressAt eArgs b (o + 96)
  let total ← wordAt eArgs 128 b (o + 160)
  let start ← wordAt eArgs 32 b (o + 176)
  let cliff ← wordAt eArgs 32 b (o + 180)
  let endTime ← wordAt eArgs 32 b (o + 184)
  let step ← wordAt eArgs 32 b (o + 188)
  pure ⟨key, payout, refund, total, start, cliff, endTime, step, b.getD (o + 192) 0 = 1⟩

/-- Source: `Config::decode` -/
def decode [Target] (b : Bytes) : ResultCode Config := do
  failIf (b.length ≠ configBytes ∨ b.extract 49 56 ≠ (zeros 7).val) eArgs
  let owner ← arrayAt eArgs 32 b 0
  let fuel ← wordAt eArgs 128 b 32
  let streams ← tabulateM maxStreams (decodeStream b)
  let c : Config := ⟨owner, fuel, b.getD 48 0, streams⟩
  c.validate
  pure c

/-- The streams of a configuration are those below its count. -/
abbrev Active (c : Config) (i : Fin maxStreams) : Prop := i.val < c.count.toNat

/-- The configurations that pass the check. -/
structure Valid (c : Config) : Prop where
  owner_ne_zero : c.owner ≠ zeros 32
  fuel_ne_zero : c.fuel ≠ 0
  count_ne_zero : c.count ≠ 0
  count_le : c.count.toNat ≤ maxStreams
  key_ne_zero : ∀ i, c.Active i → (c.streams i).key ≠ zeros 32
  payout_ne_zero : ∀ i, c.Active i → nonzeroAddress (c.streams i).payout
  refund_ne_zero : ∀ i, c.Active i → nonzeroAddress (c.streams i).refund
  payout_ne_refund : ∀ i, c.Active i → (c.streams i).payout ≠ (c.streams i).refund
  timed : ∀ i, c.Active i → (c.streams i).Timed
  distinct : ∀ i j, c.Active i → j < i → ∀ k l,
    (c.streams j).destination k ≠ (c.streams i).destination l
  idle : ∀ i, ¬ c.Active i → c.streams i = Stream.default
  total_lt : ∑ i, (c.streams i).total.toNat < 2 ^ 128

variable {c : Config}

/-! ## Validation -/

/-- The sum of the amounts. -/
def totalAmount (c : Config) : ℕ := ∑ i, (c.streams i).total.toNat

/-- The streams in use make up the total amount, -/
theorem sum_active_total (h : ∀ i, ¬ c.Active i → c.streams i = Stream.default) :
    ((firstIndices maxStreams c.count.toNat).map fun i => (c.streams i).total.toNat).sum =
      c.totalAmount := by
  rw [sum_firstIndices]
  apply sum_ite_of_zero
  intro i hi
  rw [h i (Nat.not_lt.mpr hi)]
  rfl

/-- which is what the sum finds. -/
theorem total_ok_iff (h : ∀ i, ¬ c.Active i → c.streams i = Stream.default) {v : U128} :
    c.total = .ok v ↔ v.toNat = c.totalAmount := by
  unfold total
  rw [foldlM_add_iff, sum_active_total h]

/-- The accounts of an earlier stream are different. -/
theorem not_clash_iff {s t : Stream} :
    ¬ (∃ a ∈ [s.payout, s.refund], a = t.payout ∨ a = t.refund) ↔
      ∀ k l, s.destination k ≠ t.destination l := by
  simp only [List.mem_cons, List.not_mem_nil, or_false, exists_eq_or_imp, exists_eq_left,
    not_or, Fin.forall_fin_two, Stream.destination_zero, Stream.destination_one, ne_eq]

/-- What the loop asks of a stream. -/
structure StreamOk (c : Config) (i : Fin maxStreams) : Prop where
  key_ne_zero : (c.streams i).key ≠ zeros 32
  payout_ne_zero : nonzeroAddress (c.streams i).payout
  refund_ne_zero : nonzeroAddress (c.streams i).refund
  payout_ne_refund : (c.streams i).payout ≠ (c.streams i).refund
  timed : (c.streams i).Timed
  distinct : ∀ j < i, ∀ k l, (c.streams j).destination k ≠ (c.streams i).destination l

/-- What the check of a stream accepts. -/
theorem checkStream_ok_iff {i : Fin maxStreams} {u : Unit} :
    c.checkStream i = .ok u ↔ c.StreamOk i := by
  simp only [checkStream, bind_ok_iff, failIf_ok_iff, exists_const, not_or, not_not]
  constructor
  · rintro ⟨⟨hkey, hpayout, hrefund, hne⟩, v, hv, hclash⟩
    refine ⟨hkey, hpayout, hrefund, hne, (vested_ok_iff.mp hv).1, fun j hj => not_clash_iff.mp ?_⟩
    exact fun hno => hclash ⟨j, hj, hno⟩
  · intro h
    obtain ⟨v, hv, -⟩ := Stream.exists_earned h.timed (c.streams i).start
    refine ⟨⟨h.key_ne_zero, h.payout_ne_zero, h.refund_ne_zero, h.payout_ne_refund⟩, v, hv, ?_⟩
    rintro ⟨j, hj, hclash⟩
    exact not_clash_iff.mpr (h.distinct j hj) hclash

/-- **Validation of a configuration.** -/
theorem validate_ok_iff {u : Unit} : c.validate = .ok u ↔ c.Valid := by
  simp only [validate, bind_ok_iff, failIf_ok_iff, exists_const, forM_ok_iff, pure_ok_iff,
    mem_firstIndices, checkStream_ok_iff, not_or, not_lt, not_exists, not_and, not_not]
  constructor
  · rintro ⟨⟨howner, hfuel, hcount, hle⟩, hstreams, hidle, v, hv, -⟩
    have hdefault (i : Fin maxStreams) (hi : ¬ c.Active i) : c.streams i = Stream.default :=
      hidle i (Nat.not_lt.mp hi)
    exact {
      owner_ne_zero := howner
      fuel_ne_zero := hfuel
      count_ne_zero := hcount
      count_le := hle
      key_ne_zero := fun i hi => (hstreams i hi).key_ne_zero
      payout_ne_zero := fun i hi => (hstreams i hi).payout_ne_zero
      refund_ne_zero := fun i hi => (hstreams i hi).refund_ne_zero
      payout_ne_refund := fun i hi => (hstreams i hi).payout_ne_refund
      timed := fun i hi => (hstreams i hi).timed
      distinct := fun i j hi => (hstreams i hi).distinct j
      idle := hdefault
      total_lt := by
        have htotal := (total_ok_iff hdefault).mp hv
        unfold totalAmount at htotal
        rw [← htotal]
        exact v.isLt }
  · intro h
    refine ⟨⟨h.owner_ne_zero, h.fuel_ne_zero, h.count_ne_zero, h.count_le⟩, fun i hi =>
      ⟨h.key_ne_zero i hi, h.payout_ne_zero i hi, h.refund_ne_zero i hi, h.payout_ne_refund i hi,
        h.timed i hi, fun j hj => h.distinct i j hi hj⟩, fun i hi => h.idle i (Nat.not_lt.mpr hi),
      BitVec.ofNat 128 c.totalAmount, ?_, trivial⟩
    have hlt : c.totalAmount < 2 ^ 128 := h.total_lt
    rw [total_ok_iff h.idle, BitVec.toNat_ofNat, Nat.mod_eq_of_lt hlt]

namespace Valid

/-- **The accounts of all lanes are different.** -/
theorem destination_injective (h : c.Valid) {i j : Fin maxStreams} {k l : Fin 2} (hi : c.Active i)
    (hj : c.Active j) (heq : (c.streams i).destination k = (c.streams j).destination l) :
    i = j ∧ k = l := by
  rcases lt_trichotomy i j with hlt | rfl | hlt
  · exact absurd heq (h.distinct j i hj hlt k l)
  · have hne := h.payout_ne_refund i hi
    have hcases (m : Fin 2) : m = 0 ∨ m = 1 := by omega
    refine ⟨rfl, ?_⟩
    rcases hcases k with rfl | rfl <;> rcases hcases l with rfl | rfl
    · rfl
    · exact absurd heq hne
    · exact absurd heq.symm hne
    · rfl
  · exact absurd heq.symm (h.distinct i j hi hlt l k)

/-- The total in the words of the code. -/
theorem total_ok_iff (h : c.Valid) {v : U128} : c.total = .ok v ↔ v.toNat = c.totalAmount :=
  Config.total_ok_iff h.idle

/-- The sum fits in a valid configuration. -/
theorem exists_total (h : c.Valid) : ∃ v, c.total = .ok v ∧ v.toNat = c.totalAmount := by
  have hlt : c.totalAmount < 2 ^ 128 := h.total_lt
  have hvalue : (BitVec.ofNat 128 c.totalAmount).toNat = c.totalAmount := by
    rw [BitVec.toNat_ofNat, Nat.mod_eq_of_lt hlt]
  exact ⟨_, h.total_ok_iff.mpr hvalue, hvalue⟩

end Valid

/-! ## Encoding -/

/-- The lengths of the fields of a stream, -/
theorem lengths_encodeStream (s : Stream) :
    [s.key.val, s.payout.toBytes, s.refund.toBytes, toLe s.total, toLe s.start, toLe s.cliff,
      toLe s.endTime, toLe s.step, [if s.revocable then (1 : U8) else 0],
      (zeros 7).val].map List.length = [32, 64, 64, 16, 4, 4, 4, 4, 1, 7] := by
  simp

/-- and that of the stream. -/
@[simp] theorem length_encodeStream (s : Stream) : (encodeStream s).length = rowBytes :=
  length_flatten_of_lengths (lengths_encodeStream s)

/-- The lengths of the fields of a configuration, -/
theorem lengths_encode (c : Config) :
    [c.owner.val, toLe c.fuel, [c.count], (zeros 7).val,
      (List.ofFn fun i => encodeStream (c.streams i)).flatten].map List.length =
      [32, 16, 1, 7, 1600] := by
  have hstreams : (List.ofFn fun i => encodeStream (c.streams i)).flatten.length = 8 * 200 :=
    length_flatten_rows fun i => length_encodeStream _
  simp only [List.map_cons, List.map_nil, hstreams, length_toLe, length_bytesN,
    List.length_singleton]

/-- and that of them all. -/
@[simp] theorem length_encode (c : Config) : c.encode.length = configBytes :=
  length_flatten_of_lengths (lengths_encode c)

/-- A row of the table of streams that is read back. -/
theorem encodeStream_eq_extract_iff {b : Bytes} {o : ℕ} (hlen : o + 200 ≤ b.length) {s : Stream} :
    encodeStream s = b.extract o (o + 200) ↔
      s.key.val = b.extract o (o + 32) ∧ s.payout.toBytes = b.extract (o + 32) (o + 96) ∧
        s.refund.toBytes = b.extract (o + 96) (o + 160) ∧
        toLe s.total = b.extract (o + 160) (o + 176) ∧
        toLe s.start = b.extract (o + 176) (o + 180) ∧
        toLe s.cliff = b.extract (o + 180) (o + 184) ∧
        toLe s.endTime = b.extract (o + 184) (o + 188) ∧
        toLe s.step = b.extract (o + 188) (o + 192) ∧
        (if s.revocable then 1 else 0) = b.getD (o + 192) 0 ∧
        (zeros 7).val = b.extract (o + 193) (o + 200) := by
  have hone : b.extract (o + 192) (o + 193) = [b.getD (o + 192) 0] := extract_one (by omega)
  have h := flatten_eq_extract_iff (lengths_encodeStream s) hlen
  simpa only [encodeStream, splitParts, List.cons.injEq, and_true, Nat.add_assoc, Nat.reduceAdd,
    List.sum_cons, List.sum_nil, hone] using h

/-- A word is an encoding exactly when each field stands at its offset. -/
theorem encode_eq_iff {b : Bytes} (hlen : b.length = configBytes) :
    c.encode = b ↔
      c.owner.val = b.extract 0 32 ∧ toLe c.fuel = b.extract 32 48 ∧ c.count = b.getD 48 0 ∧
        (zeros 7).val = b.extract 49 56 ∧
        ∀ i : Fin maxStreams,
          encodeStream (c.streams i) = b.extract (56 + i * 200) (56 + i * 200 + 200) := by
  have hstreams : (List.ofFn fun i => encodeStream (c.streams i)).flatten = b.extract 56 1656 ↔
      ∀ i : Fin maxStreams,
        encodeStream (c.streams i) = b.extract (56 + i * 200) (56 + i * 200 + 200) :=
    flatten_rows_iff (fun i => length_encodeStream (c.streams i)) (by rw [hlen]; decide)
  have hcount : b.extract 48 49 = [b.getD 48 0] := extract_one (by rw [hlen]; decide)
  rw [encode, flatten_eq_iff (lengths_encode c) hlen]
  simp only [splitParts, List.cons.injEq, and_true, Nat.reduceAdd, hcount, hstreams]

/-- A row of the table of streams is decoded exactly when it is the encoding of the stream. -/
theorem decodeStream_ok_iff [Target] {b : Bytes} (hlen : b.length = configBytes)
    {i : Fin maxStreams} {s : Stream} : decodeStream b i = .ok s ↔
      encodeStream s = b.extract (56 + i * 200) (56 + i * 200 + 200) := by
  have hi := i.isLt
  have hsmall : b.length < 2 ^ 32 := by rw [hlen]; decide
  have hrow : 56 + i.val * 200 + 200 ≤ b.length := by
    rw [hlen]
    unfold configBytes maxStreams at *
    omega
  rw [encodeStream_eq_extract_iff hrow]
  simp only [decodeStream, rowBytes, bind_ok_iff, failIf_ok_iff, pure_ok_iff, exists_const, not_or,
    not_not]
  generalize 56 + i.val * 200 = o at hrow ⊢
  have hkey {a : Bytes32} :=
    arrayAt_ok_iff (e := eArgs) hsmall (show o + 32 ≤ b.length by omega) (a := a)
  have haddress (d : ℕ) (hd : d + 64 ≤ 200) {a : AccountAddress} :
      addressAt eArgs b (o + d) = .ok a ↔ a.toBytes = b.extract (o + d) (o + d + 64) :=
    addressAt_ok_iff hsmall (by omega)
  have hword (w d : ℕ) (hw : 8 ∣ w) (hd : d + w / 8 ≤ 200) {x : BitVec w} :
      wordAt eArgs w b (o + d) = .ok x ↔ toLe x = b.extract (o + d) (o + d + w / 8) :=
    wordAt_ok_iff hsmall hw (by omega)
  have hpayout := haddress 32 (by decide) (a := s.payout)
  have hrefund := haddress 96 (by decide) (a := s.refund)
  have htotal := hword 128 160 (by decide) (by decide) (x := s.total)
  have hstart := hword 32 176 (by decide) (by decide) (x := s.start)
  have hcliff := hword 32 180 (by decide) (by decide) (x := s.cliff)
  have hend := hword 32 184 (by decide) (by decide) (x := s.endTime)
  have hstep := hword 32 188 (by decide) (by decide) (x := s.step)
  constructor
  · rintro ⟨⟨hflag, hpad⟩, _, h1, _, h2, _, h3, _, h4, _, h5, _, h6, _, h7, _, h8, rfl⟩
    exact ⟨hkey.mp h1, hpayout.mp h2, hrefund.mp h3, htotal.mp h4, hstart.mp h5, hcliff.mp h6,
      hend.mp h7, hstep.mp h8, flag_eq_iff.mpr ⟨hflag, rfl⟩, hpad.symm⟩
  · rintro ⟨h1, h2, h3, h4, h5, h6, h7, h8, h9, hpad⟩
    obtain ⟨hflag, hrevocable⟩ := flag_eq_iff.mp h9
    exact ⟨⟨hflag, hpad.symm⟩, s.key, hkey.mpr h1, s.payout, hpayout.mpr h2, s.refund,
      hrefund.mpr h3, s.total, htotal.mpr h4, s.start, hstart.mpr h5, s.cliff, hcliff.mpr h6,
      s.endTime, hend.mpr h7, s.step, hstep.mpr h8, by rw [hrevocable]⟩

/-- **Decoding a configuration.** -/
theorem decode_ok_iff [Target] {b : Bytes} : decode b = .ok c ↔ c.encode = b ∧ c.Valid := by
  by_cases hlen : b.length = configBytes
  · have hsmall : b.length < 2 ^ 32 := by rw [hlen]; decide
    have howner {a : Bytes32} : arrayAt eArgs 32 b 0 = .ok a ↔ a.val = b.extract 0 32 :=
      arrayAt_ok_iff hsmall (by rw [hlen]; decide)
    have hfuel {x : U128} : wordAt eArgs 128 b 32 = .ok x ↔ toLe x = b.extract 32 48 :=
      wordAt_ok_iff hsmall (by decide) (by rw [hlen]; decide)
    simp only [decode, hlen, ne_eq, not_true_eq_false, false_or, bind_ok_iff, failIf_ok_iff,
      pure_ok_iff, exists_const, not_not, tabulateM_ok_iff, decodeStream_ok_iff hlen, howner,
      hfuel, validate_ok_iff, encode_eq_iff hlen]
    constructor
    · rintro ⟨hpad, owner, howner, fuel, hfuel, streams, hstreams, hvalid, rfl⟩
      exact ⟨⟨howner, hfuel, rfl, hpad.symm, hstreams⟩, hvalid⟩
    · rintro ⟨⟨howner, hfuel, hcount, hpad, hstreams⟩, hvalid⟩
      have hc : (⟨c.owner, c.fuel, b.getD 48 0, c.streams⟩ : Config) = c := by rw [← hcount]
      exact ⟨hpad.symm, c.owner, howner, c.fuel, hfuel, c.streams, hstreams, hc ▸ hvalid, hc⟩
  · have hno : c.encode ≠ b := fun h => hlen (h ▸ length_encode c)
    simp only [decode, hlen, ne_eq, not_false_eq_true, true_or, bind_ok_iff, failIf_ok_iff,
      not_true_eq_false, false_and, exists_false, hno]

end Config

end AvmSdk.Vesting
