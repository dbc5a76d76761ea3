import AvmSdk.Sdk.Types
import AvmSdk.Wire.Cursor

/-!
# The input reader

The two ways in which the input decoders read bytes: the `Reader`, a cursor that moves over the
input, and the `read_*_at` functions, which read a field at a fixed offset.

* The language of each reader step (`reads_take`, `reads_word`, `reads_fixed`,
  `reads_lengthPrefixedU32`), in the sense of `Wire.Reads`.
* `reads_run_finish`: a reader followed by `finish` accepts exactly the inputs that are a word of
  its language.
* `readFixedAt_skip` and `readFixedAt_here`, with `readWordAt_here`: reading a field out of a
  concatenation.
-/

namespace AvmSdk.Sdk

open Wire Wire.Cursor

/-- Source: `input.rs` `DecodeError` -/
inductive DecodeError
  | unexpectedEof
  | integerOverflow
  | badMagic
  | nonZeroReserved
  | unknownTag
  | invalidLength
  | invalidValue
  | unsorted
  | callerMismatch
  | destinationMismatch
  | callbackForbidden
  | trailingBytes
deriving DecidableEq, Repr

/-- Source: `input.rs` `Reader` -/
structure Reader where
  /-- The input. -/
  bytes : Bytes
  /-- The number of bytes read so far. -/
  position : ℕ

/-- A step of a reader. -/
abbrev ReadM := StateT Reader (Except DecodeError)

namespace Reader

/-- Source: `input.rs` `Reader::new` -/
def new (bytes : Bytes) : Reader := ⟨bytes, 0⟩

/-- Source: `input.rs` `Reader::with_position` -/
def withPosition (bytes : Bytes) (position : ℕ) : Except DecodeError Reader := do
  failIf (position > bytes.length) .unexpectedEof
  pure ⟨bytes, position⟩

/-- The common part of `Reader::finish` and of the `FieldReader::finish` of `output.rs`, with the
error that each returns on bytes that are left. -/
def finishBytes {ε : Type} (trailing : ε) (self : Reader) : Except ε Unit :=
  failIf (self.position ≠ self.bytes.length) trailing

/-- Source: `input.rs` `Reader::finish` -/
def finish (self : Reader) : Except DecodeError Unit := self.finishBytes .trailingBytes

variable [Target]

/-- The common part of `Reader::take` and of the `FieldReader::take` of `output.rs`, with the
errors that each returns on overflow and on missing bytes. -/
def takeBytes {ε : Type} (overflow eof : ε) (length : ℕ) : StateT Reader (Except ε) Bytes :=
  fun self => do
    let stop ← okOr (checkedAdd self.position length) overflow
    let value ← okOr (getRange self.bytes self.position stop) eof
    pure (value, { self with position := stop })

/-- Source: `input.rs` `Reader::take` -/
def take (length : ℕ) : ReadM Bytes := takeBytes .integerOverflow .unexpectedEof length

/-- Source: `input.rs` `Reader::fixed`, and `Reader::array` -/
def fixed (n : ℕ) : ReadM (BytesN n) := do
  let bytes ← take n
  okOr (tryIntoArray n bytes) DecodeError.unexpectedEof

/-- The common part of `Reader::u16`, `Reader::u32` and `Reader::u64`. -/
def word (w : ℕ) : ReadM (BitVec w) := do
  let bytes ← fixed (w / 8)
  pure (ofLe w bytes.val)

/-- Source: `input.rs` `Reader::u8` -/
def u8 : ReadM U8 := do
  let bytes ← take 1
  -- one byte was taken, so index 0 is there
  pure (bytes.headD 0)

/-- Source: `input.rs` `Reader::u16` -/
def u16 : ReadM U16 := word 16

/-- Source: `input.rs` `Reader::u32` -/
def u32 : ReadM U32 := word 32

/-- Source: `input.rs` `Reader::u64` -/
def u64 : ReadM U64 := word 64

/-- Source: `input.rs` `to_usize` -/
def toUsize (value : U32) : Except DecodeError ℕ := okOr (usizeTryFrom value) .integerOverflow

/-- Source: `input.rs` `Reader::length_prefixed_u32` -/
def lengthPrefixedU32 : ReadM Bytes := do
  let length ← u32
  let length ← toUsize length
  take length

end Reader

/-! ## Fields at fixed offsets -/

section

variable [Target]

/-- Source: `input.rs` `read_fixed_at`, and `read_array_at` -/
def readFixedAt (n : ℕ) (bytes : Bytes) (offset : ℕ) : Except DecodeError (BytesN n) := do
  let stop ← okOr (checkedAdd offset n) .integerOverflow
  let part ← okOr (getRange bytes offset stop) .unexpectedEof
  okOr (tryIntoArray n part) .unexpectedEof

/-- The common part of `read_u16_at`, `read_u32_at`, `read_u64_at` and `read_u128_at`. -/
def readWordAt (w : ℕ) (bytes : Bytes) (offset : ℕ) : Except DecodeError (BitVec w) := do
  let part ← readFixedAt (w / 8) bytes offset
  pure (ofLe w part.val)

/-- Source: `input.rs` `read_u16_at` -/
abbrev readU16At := readWordAt 16

/-- Source: `input.rs` `read_u32_at` -/
abbrev readU32At := readWordAt 32

/-- Source: `input.rs` `read_u64_at` -/
abbrev readU64At := readWordAt 64

/-- Source: `input.rs` `read_u128_at` -/
abbrev readU128At := readWordAt 128

end

/-- Source: `input.rs` `require_zero` -/
def requireZero (bytes : Bytes) : Except DecodeError Unit :=
  failIf (bytes.any (· ≠ 0) = true) .nonZeroReserved

/-- The bytes must all be zero. -/
theorem requireZero_ok_iff {bytes : Bytes} {u : Unit} :
    requireZero bytes = .ok u ↔ bytes = List.replicate bytes.length 0 := by
  simp [requireZero, List.eq_replicate_iff]

/-! ## The reader as a cursor -/

section

variable [Target]

/-- A reader is a cursor over its bytes. It is sound when it stands inside a byte string whose
length is a `usize`, so that `take` cannot overflow before it runs off the end. -/
instance : Cursor Reader Byte where
  rest r := r.bytes.drop r.position
  advance n r := { r with position := r.position + n }
  Sound r := r.position ≤ r.bytes.length ∧ r.bytes.length ≤ usizeMax
  rest_advance n r := (List.drop_drop ..).symm
  advance_zero r := rfl
  advance_advance m n r := by simp only [Nat.add_assoc]
  sound_advance n r hn hr := by
    rw [List.length_drop] at hn
    refine ⟨?_, hr.2⟩
    show r.position + n ≤ r.bytes.length
    omega

/-- A reader starts soundly, -/
theorem sound_new {bytes : Bytes} (h : bytes.length ≤ usizeMax) : Sound (Reader.new bytes) :=
  ⟨Nat.zero_le _, h⟩

/-- with all bytes in front of it. -/
theorem rest_new (bytes : Bytes) : rest (Reader.new bytes) = bytes := List.drop_zero

/-- `finish` succeeds exactly when nothing is left. -/
theorem finishBytes_ok_iff {ε : Type} {trailing : ε} {r : Reader} (hr : Sound r) {u : Unit} :
    r.finishBytes trailing = .ok u ↔ rest r = [] := by
  have hpos : r.position ≤ r.bytes.length := hr.1
  have hrest : rest r = r.bytes.drop r.position := rfl
  rw [Reader.finishBytes, failIf_ok_iff, hrest, List.drop_eq_nil_iff, not_not]
  omega

/-- A reader followed by `finish` accepts exactly the words of its language. -/
theorem reads_run_finishBytes {α ε : Type} {p : StateT Reader (Except ε) α}
    {R : α → Bytes → Prop} (hp : Reads p R) {r : Reader} (hr : Sound r) (trailing : ε) (a : α) :
    (∃ r', p r = .ok (a, r') ∧ r'.finishBytes trailing = .ok ()) ↔ R a (rest r) := by
  rw [← hp.run_rest_eq_nil hr a]
  constructor
  · rintro ⟨r', hrun, hfin⟩
    obtain ⟨w, -, hw, rfl⟩ := (hp r hr a r').mp hrun
    have hs := sound_advance_word hr hw
    exact ⟨_, hrun, hs, (finishBytes_ok_iff hs).mp hfin⟩
  · rintro ⟨r', hrun, hs, hrest⟩
    exact ⟨r', hrun, (finishBytes_ok_iff hs).mpr hrest⟩

/-- The same, with the errors of the input decoders. -/
theorem reads_run_finish {α : Type} {p : ReadM α} {R : α → Bytes → Prop}
    (hp : Reads p R) {r : Reader} (hr : Sound r) (a : α) :
    (∃ r', p r = .ok (a, r') ∧ r'.finish = .ok ()) ↔ R a (rest r) :=
  reads_run_finishBytes hp hr _ a

/-! ### The language of each step -/

/-- Taking `n` bytes reads any `n` bytes. -/
theorem reads_takeBytes {ε : Type} (overflow eof : ε) (n : ℕ) :
    Reads (Reader.takeBytes overflow eof n) (fun v w => v = w ∧ w.length = n) := by
  intro r hr v r'
  obtain ⟨hpos, hmax⟩ := hr
  have hrun : Reader.takeBytes overflow eof n r = .ok (v, r') ↔
      r.position + n ≤ r.bytes.length ∧
        (v = (r.bytes.drop r.position).take n ∧ r' = { r with position := r.position + n }) := by
    simp only [Reader.takeBytes, bind_ok_iff, okOr_ok_iff, checkedAdd_eq_some, getRange_eq_some,
      pure_ok_iff, Prod.mk.injEq, List.extract_eq_take_drop]
    constructor
    · rintro ⟨stop, ⟨-, rfl⟩, value, ⟨⟨-, hle⟩, rfl⟩, rfl, rfl⟩
      exact ⟨hle, by rw [Nat.add_sub_cancel_left], rfl⟩
    · rintro ⟨hle, rfl, rfl⟩
      exact ⟨_, ⟨by omega, rfl⟩, _, ⟨⟨by omega, hle⟩, rfl⟩, by rw [Nat.add_sub_cancel_left], rfl⟩
  rw [hrun]
  constructor
  · rintro ⟨hle, rfl, rfl⟩
    have hlen : ((r.bytes.drop r.position).take n).length = n := by
      rw [List.length_take, List.length_drop]
      omega
    refine ⟨_, ⟨rfl, hlen⟩, List.take_prefix _ _, ?_⟩
    rw [hlen]
    rfl
  · rintro ⟨w, ⟨rfl, rfl⟩, hw, rfl⟩
    have hle := hw.length_le
    have hrest : rest r = r.bytes.drop r.position := rfl
    rw [hrest, List.length_drop] at hle
    exact ⟨by omega, List.prefix_iff_eq_take.mp hw, rfl⟩

/-- A number of bytes is read. -/
theorem reads_take (n : ℕ) : Reads (Reader.take n) (fun v w => v = w ∧ w.length = n) :=
  reads_takeBytes _ _ n

/-- `fixed n` reads any array of `n` bytes. -/
theorem reads_fixed (n : ℕ) : Reads (Reader.fixed n) (fun a w => w = a.val) := by
  refine ((reads_take n).bind fun bytes => Reads.lift _).congr fun a w => ?_
  constructor
  · rintro ⟨v, u, u', ⟨rfl, hlen⟩, ⟨h, rfl⟩, rfl⟩
    rw [okOr_ok_iff, tryIntoArray_eq_some] at h
    rw [List.append_nil, h]
  · rintro rfl
    refine ⟨a.val, a.val, [], ⟨rfl, a.property⟩, ⟨?_, rfl⟩, (List.append_nil _).symm⟩
    rw [okOr_ok_iff, tryIntoArray_eq_some]

/-- `word w` reads any word of `w` bits. -/
theorem reads_word {w : ℕ} (hw : 8 ∣ w) : Reads (Reader.word w) (fun x v => v = toLe x) := by
  refine ((reads_fixed (w / 8)).bind fun bytes => Reads.pure _).congr fun x v => ?_
  constructor
  · rintro ⟨a, u, u', rfl, ⟨rfl, rfl⟩, rfl⟩
    rw [List.append_nil, toLe_ofLe (by rw [a.property, Nat.mul_div_cancel' hw])]
  · rintro rfl
    exact ⟨⟨toLe x, length_toLe x⟩, toLe x, [], rfl, ⟨(ofLe_toLe hw x).symm, rfl⟩,
      (List.append_nil _).symm⟩

/-- One byte is read, -/
theorem reads_u8 : Reads Reader.u8 (fun x v => v = [x]) := by
  refine ((reads_take 1).bind fun bytes => Reads.pure _).congr fun x v => ?_
  constructor
  · rintro ⟨a, u, u', ⟨rfl, hlen⟩, ⟨rfl, rfl⟩, rfl⟩
    obtain ⟨y, rfl⟩ := List.length_eq_one_iff.mp hlen
    rfl
  · rintro rfl
    exact ⟨[x], [x], [], ⟨rfl, rfl⟩, ⟨rfl, rfl⟩, rfl⟩

/-- two, -/
theorem reads_u16 : Reads Reader.u16 (fun x v => v = toLe x) := reads_word (by norm_num)

/-- four -/
theorem reads_u32 : Reads Reader.u32 (fun x v => v = toLe x) := reads_word (by norm_num)

/-- and eight. -/
theorem reads_u64 : Reads Reader.u64 (fun x v => v = toLe x) := reads_word (by norm_num)

/-- Every word of 32 bits is a `usize`. -/
theorem toUsize_ok_iff {x : U32} {n : ℕ} : Reader.toUsize x = .ok n ↔ x.toNat = n := by
  simp [Reader.toUsize]

/-- `length_prefixed_u32` reads any byte string after its length. -/
theorem reads_lengthPrefixedU32 :
    Reads Reader.lengthPrefixedU32
      (fun v w => v.length < 2 ^ 32 ∧ w = lengthPrefixed 4 v) := by
  refine (reads_u32.bind fun length => (Reads.lift _).bind fun n => reads_take n).congr
    fun v w => ?_
  constructor
  · rintro ⟨x, u, u', rfl, ⟨n, u₁, u₂, ⟨hn, rfl⟩, ⟨rfl, hlen⟩, rfl⟩, rfl⟩
    rw [toUsize_ok_iff] at hn
    subst hn
    exact ⟨hlen ▸ x.isLt, by rw [toLe, lengthPrefixed, hlen]⟩
  · rintro ⟨hlt, rfl⟩
    refine ⟨BitVec.ofNat 32 v.length, leBytes 4 v.length, v, (toLe_ofNat hlt).symm, ?_, rfl⟩
    refine ⟨v.length, [], v, ⟨?_, rfl⟩, ⟨rfl, rfl⟩, rfl⟩
    rw [toUsize_ok_iff, BitVec.toNat_ofNat, Nat.mod_eq_of_lt hlt]

/-- The test for zeros reads nothing. -/
theorem reads_requireZero (bytes : Bytes) :
    Reads (liftM (requireZero bytes) : ReadM Unit)
      (fun _ w => bytes = List.replicate bytes.length 0 ∧ w = []) :=
  (Reads.lift _).congr fun _ _ => by rw [requireZero_ok_iff]

/-! ### Fields of a concatenation -/

/-- Bytes are read where they stand, inside the whole. -/
theorem readFixedAt_ok_iff {n : ℕ} {bytes : Bytes} {offset : ℕ} {a : BytesN n} :
    readFixedAt n bytes offset = .ok a ↔
      (offset + n ≤ usizeMax ∧ offset + n ≤ bytes.length) ∧
        (bytes.drop offset).take n = a.val := by
  simp only [readFixedAt, bind_ok_iff, okOr_ok_iff, checkedAdd_eq_some, getRange_eq_some,
    tryIntoArray_eq_some, List.extract_eq_take_drop]
  constructor
  · rintro ⟨stop, ⟨hmax, rfl⟩, part, ⟨⟨-, hle⟩, rfl⟩, h⟩
    exact ⟨⟨hmax, hle⟩, by rwa [Nat.add_sub_cancel_left] at h⟩
  · rintro ⟨⟨hmax, hle⟩, h⟩
    exact ⟨_, ⟨hmax, rfl⟩, _, ⟨⟨by omega, hle⟩, rfl⟩, by rwa [Nat.add_sub_cancel_left]⟩

/-- A field inside a byte string is read as it stands there. -/
theorem exists_readFixedAt {n offset : ℕ} {bytes : Bytes} (hmax : bytes.length ≤ usizeMax)
    (h : offset + n ≤ bytes.length) :
    ∃ a, readFixedAt n bytes offset = .ok a ∧ a.val = bytes.extract offset (offset + n) := by
  have hlen : ((bytes.drop offset).take n).length = n := by
    rw [List.length_take, List.length_drop]
    omega
  refine ⟨⟨_, hlen⟩, readFixedAt_ok_iff.mpr ⟨⟨by omega, h⟩, rfl⟩, ?_⟩
  rw [List.extract_eq_take_drop, Nat.add_sub_cancel_left]

/-- A word inside a byte string is read as it stands there. -/
theorem readWordAt_eq {w offset : ℕ} {bytes : Bytes} (hmax : bytes.length ≤ usizeMax)
    (h : offset + w / 8 ≤ bytes.length) :
    readWordAt w bytes offset = .ok (ofLe w (bytes.extract offset (offset + w / 8))) := by
  obtain ⟨a, ha, hval⟩ := exists_readFixedAt hmax h
  rw [readWordAt, ha, ← hval]
  rfl

/-- A field behind a known front is read from what follows the front. -/
theorem readFixedAt_skip {n offset : ℕ} {u v : Bytes} (hu : u.length ≤ offset)
    (hmax : offset + n < 2 ^ 32) :
    readFixedAt n (u ++ v) offset = readFixedAt n v (offset - u.length) := by
  have hbound := Target.u32_le_usizeMax
  have hsum : offset + n - u.length = offset - u.length + n := by omega
  simp only [readFixedAt, checkedAdd]
  rw [if_pos (by omega), if_pos (by omega)]
  simp only [okOr_some, ok_bind]
  rw [getRange_skip hu (by omega), hsum]

/-- A field at the front. -/
theorem readFixedAt_here {n : ℕ} (hn : n < 2 ^ 32) (a : BytesN n) (v : Bytes) :
    readFixedAt n (a.val ++ v) 0 = .ok a := by
  have hbound := Target.u32_le_usizeMax
  have hlen := a.property
  rw [readFixedAt_ok_iff]
  refine ⟨⟨by omega, by rw [List.length_append]; omega⟩, ?_⟩
  rw [List.drop_zero, List.take_left' hlen]

/-- A field that is the whole of the bytes. -/
theorem readFixedAt_self {n : ℕ} (hn : n < 2 ^ 32) (a : BytesN n) :
    readFixedAt n a.val 0 = .ok a := by
  have h := readFixedAt_here hn a []
  rwa [List.append_nil] at h

/-- A word behind a known front is read from what follows the front. -/
theorem readWordAt_skip {w offset : ℕ} {u v : Bytes} (hu : u.length ≤ offset)
    (hmax : offset + w / 8 < 2 ^ 32) :
    readWordAt w (u ++ v) offset = readWordAt w v (offset - u.length) := by
  rw [readWordAt, readWordAt, readFixedAt_skip hu hmax]

/-- A word at the front. -/
theorem readWordAt_here {w : ℕ} (hw : 8 ∣ w) (hlt : w / 8 < 2 ^ 32) (x : BitVec w) (v : Bytes) :
    readWordAt w (toLe x ++ v) 0 = .ok x := by
  have h := readFixedAt_here hlt ⟨toLe x, length_toLe x⟩ v
  rw [readWordAt, bind_ok_iff]
  exact ⟨_, h, by rw [pure_ok_iff, ofLe_toLe hw]⟩

end

end AvmSdk.Sdk
