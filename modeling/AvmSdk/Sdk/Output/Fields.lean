import AvmSdk.Sdk.Input.Reader
import AvmSdk.Sdk.Output.Types

/-!
# Event field lists

The check of the packed field list of an event, by a second reader with the errors of the encoder.

* `EventFieldBytes`: one field as it stands in a list. `CanonicalFields`: the well-formed lists,
  that is a count, a reserved zero and the fields, with strictly ascending names.
* `validateEventFieldList_ok_iff`: the check accepts exactly the canonical lists.
-/

namespace AvmSdk.Sdk

open Wire Wire.Cursor

/-- `core::str::from_utf8` succeeds. -/
def IsUtf8 (bytes : Bytes) : Prop :=
  (ByteArray.mk (bytes.map UInt8.ofBitVec).toArray).validateUTF8 = true

instance (bytes : Bytes) : Decidable (IsUtf8 bytes) := inferInstanceAs (Decidable (_ = _))

/-- The values that a kind of field admits.
Source: `output.rs` `validate_event_field_list`, `match kind` -/
def ValidFieldValue (kind : U8) (value : Bytes) : Prop :=
  match kind.toNat with
  | 0 => value = []
  | 1 => value = [0] ∨ value = [1]
  | 2 | 3 => value.length = 8
  | 4 | 5 => value.length = 16
  | 6 => IsUtf8 value
  | 7 => True
  | 8 => value.length = 64
  | _ => False

instance (kind : U8) (value : Bytes) : Decidable (ValidFieldValue kind value) := by
  unfold ValidFieldValue
  split <;> infer_instance

/-- A field as it stands in a packed list. -/
structure EventFieldBytes where
  name : Bytes
  kind : U8
  value : Bytes

/-- The bytes of a field: the length of the name, the kind, the length of the value, both. -/
def EventFieldBytes.toBytes (field : EventFieldBytes) : Bytes :=
  leBytes 2 field.name.length ++ (field.kind :: (leBytes 2 field.value.length ++
    (field.name ++ field.value)))

/-- The fields that may stand in a list. -/
structure EventFieldBytes.Valid (field : EventFieldBytes) : Prop where
  name_length : field.name.length < 2 ^ 16
  value_length : field.value.length < 2 ^ 16
  name_utf8 : IsUtf8 field.name
  value_ok : ValidFieldValue field.kind field.value

/-- The canonical field lists. -/
def CanonicalFields (bytes : Bytes) : Prop :=
  ∃ fields : List EventFieldBytes, fields.length < 2 ^ 16 ∧ (∀ f ∈ fields, f.Valid) ∧
    (fields.map EventFieldBytes.name).Pairwise (· < ·) ∧
    bytes = leBytes 2 fields.length ++ (toLe (0 : U16) ++ fields.flatMap EventFieldBytes.toBytes)

/-- A step of the field reader. `FieldReader` has the same two fields as `Reader`.
Source: `output.rs` `FieldReader` -/
abbrev FieldM := StateT Reader (Except EncodeError)

namespace FieldReader

variable [Target]

/-- Source: `output.rs` `FieldReader::take` -/
def take (length : ℕ) : FieldM Bytes := Reader.takeBytes .lengthOverflow .invalidEvent length

/-- Source: `output.rs` `FieldReader::u8` -/
def u8 : FieldM U8 := do
  let bytes ← take 1
  -- one byte was taken, so index 0 is there
  pure (bytes.headD 0)

/-- Source: `output.rs` `FieldReader::u16` -/
def u16 : FieldM U16 := do
  let bytes ← take 2
  let bytes ← okOr (tryIntoArray 2 bytes) EncodeError.invalidEvent
  pure (ofLe 16 bytes.val)

/-- Source: `output.rs` `FieldReader::finish` -/
def finish (self : Reader) : Except EncodeError Unit := self.finishBytes .invalidEvent

end FieldReader

section

variable [Target]

/-- The loop over the fields, with the number that is left and the name before.
Source: `output.rs` `validate_event_field_list`, `for _ in 0..count` -/
def validateFields : ℕ → Option Bytes → FieldM Unit
  | 0, _ => pure ()
  | count + 1, previousName => do
      let nameLen ← FieldReader.u16
      let kind ← FieldReader.u8
      let valueLen ← FieldReader.u16
      let name ← FieldReader.take nameLen.toNat
      failIf (¬ IsUtf8 name) EncodeError.invalidEvent
      failIf (previousName.any (fun previous => !decide (previous < name)) = true)
        EncodeError.invalidEvent
      let value ← FieldReader.take valueLen.toNat
      failIf (¬ ValidFieldValue kind value) EncodeError.invalidEvent
      validateFields count (some name)

/-- The cursor part of `validate_event_field_list`. -/
def readFieldList : FieldM Unit := do
  let count ← FieldReader.u16
  let reserved ← FieldReader.u16
  failIf (reserved ≠ 0) EncodeError.invalidEvent
  validateFields count.toNat none

/-- Source: `output.rs` `validate_event_field_list` -/
def validateEventFieldList (bytes : Bytes) : Except EncodeError Unit := do
  let (_, reader) ← readFieldList (Reader.new bytes)
  FieldReader.finish reader

/-! ## The language of the check -/

/-- A number of bytes is read, -/
theorem FieldReader.reads_take (n : ℕ) :
    Reads (FieldReader.take n) (fun v w => v = w ∧ w.length = n) :=
  reads_takeBytes _ _ n

/-- one byte -/
theorem FieldReader.reads_u8 : Reads FieldReader.u8 (fun x v => v = [x]) := by
  refine ((FieldReader.reads_take 1).bind fun bytes => Reads.pure _).congr fun x v => ?_
  constructor
  · rintro ⟨a, u, u', ⟨rfl, hlen⟩, ⟨rfl, rfl⟩, rfl⟩
    obtain ⟨y, rfl⟩ := List.length_eq_one_iff.mp hlen
    rfl
  · rintro rfl
    exact ⟨[x], [x], [], ⟨rfl, rfl⟩, ⟨rfl, rfl⟩, rfl⟩

/-- and two. -/
theorem FieldReader.reads_u16 : Reads FieldReader.u16 (fun x v => v = toLe x) := by
  refine ((FieldReader.reads_take 2).bind fun bytes => (Reads.lift _).bind fun array =>
    Reads.pure _).congr fun x v => ?_
  constructor
  · rintro ⟨bytes, u, u', ⟨rfl, -⟩, ⟨array, u₁, u₂, ⟨harray, rfl⟩, ⟨rfl, rfl⟩, rfl⟩, rfl⟩
    rw [okOr_ok_iff, tryIntoArray_eq_some] at harray
    rw [toLe_ofLe (by rw [array.property]), harray]
    simp
  · rintro rfl
    refine ⟨toLe x, toLe x, [], ⟨rfl, by simp⟩, ⟨⟨toLe x, by simp⟩, [], [], ⟨?_, rfl⟩,
      ⟨(ofLe_toLe (by norm_num) x).symm, rfl⟩, rfl⟩, (List.append_nil _).symm⟩
    rw [okOr_ok_iff, tryIntoArray_eq_some]

/-- The loop reads the announced number of valid fields, with names that ascend from the name
before. -/
theorem reads_validateFields (count : ℕ) (previousName : Option Bytes) :
    Reads (validateFields count previousName) (fun _ w => ∃ fields : List EventFieldBytes,
      fields.length = count ∧ (∀ f ∈ fields, f.Valid) ∧
      (previousName.toList ++ fields.map EventFieldBytes.name).IsChain (· < ·) ∧
      w = fields.flatMap EventFieldBytes.toBytes) := by
  induction count generalizing previousName with
  | zero =>
      refine (Reads.pure ()).congr fun _ w => ?_
      constructor
      · rintro ⟨-, rfl⟩
        refine ⟨[], rfl, by simp, ?_, rfl⟩
        cases previousName <;> simp
      · rintro ⟨fields, hlen, -, -, rfl⟩
        rw [List.length_eq_zero_iff.mp hlen]
        exact ⟨rfl, rfl⟩
  | succ count ih =>
      refine (FieldReader.reads_u16.bind fun nameLen => FieldReader.reads_u8.bind fun kind =>
        FieldReader.reads_u16.bind fun valueLen => (FieldReader.reads_take nameLen.toNat).bind
        fun name => (Reads.failIf _ _).bind fun _ => (Reads.failIf _ _).bind fun _ =>
        (FieldReader.reads_take valueLen.toNat).bind fun value => (Reads.failIf _ _).bind fun _ =>
        ih (some name)).congr fun _ w => ?_
      constructor
      · intro ⟨nameLen, _, v₀, u₀, h, w₀⟩
        obtain ⟨kind, _, v₁, u₁, h, w₁⟩ := h
        obtain ⟨valueLen, _, v₂, u₂, h, w₂⟩ := h
        obtain ⟨name, _, v₃, ⟨u₃, hname⟩, h, w₃⟩ := h
        obtain ⟨_, _, v₄, ⟨hutf8, u₄⟩, h, w₄⟩ := h
        obtain ⟨_, _, v₅, ⟨hlt, u₅⟩, h, w₅⟩ := h
        obtain ⟨value, _, v₆, ⟨u₆, hvalue⟩, h, w₆⟩ := h
        obtain ⟨_, _, v₇, ⟨hok, u₇⟩, ⟨fields, hlen, hfields, hchain, hw⟩, w₇⟩ := h
        refine ⟨⟨name, kind, value⟩ :: fields, congrArg Nat.succ hlen, ?_, ?_, ?_⟩
        · rw [List.forall_mem_cons]
          refine ⟨⟨?_, ?_, not_not.mp hutf8, not_not.mp hok⟩, hfields⟩
          · show name.length < 2 ^ 16
            rw [u₃, hname]
            exact nameLen.isLt
          · show value.length < 2 ^ 16
            rw [u₆, hvalue]
            exact valueLen.isLt
        · rw [List.map_cons, isChain_toList_append_cons]
          exact ⟨hlt, hchain⟩
        · rw [List.flatMap_cons, EventFieldBytes.toBytes, w₀, w₁, w₂, w₃, w₄, w₅, w₆, w₇, u₀, u₁,
            u₂, ← u₃, u₄, u₅, ← u₆, u₇, hw, toLe, toLe, ← hname, ← hvalue, ← u₃, ← u₆]
          simp
      · rintro ⟨fields, hlen, hfields, hchain, rfl⟩
        obtain ⟨⟨name, kind, value⟩, fields, rfl⟩ := List.exists_cons_of_length_eq_add_one hlen
        rw [List.forall_mem_cons] at hfields
        obtain ⟨⟨hname, hvalue, hutf8, hok⟩, hfields⟩ := hfields
        rw [List.map_cons, isChain_toList_append_cons] at hchain
        refine ⟨BitVec.ofNat 16 name.length, _, _, rfl, ⟨kind, _, _, rfl,
          ⟨BitVec.ofNat 16 value.length, _, _, rfl, ⟨name, name, _, ⟨rfl, ?_⟩,
          ⟨(), [], _, ⟨not_not.mpr hutf8, rfl⟩, ⟨(), [], _, ⟨hchain.1, rfl⟩,
          ⟨value, value, _, ⟨rfl, ?_⟩, ⟨(), [], _, ⟨not_not.mpr hok, rfl⟩,
          ⟨fields, Nat.succ.inj hlen, hfields, hchain.2, rfl⟩, rfl⟩, rfl⟩, rfl⟩, rfl⟩, rfl⟩, rfl⟩,
          rfl⟩, ?_⟩
        · rw [BitVec.toNat_ofNat, Nat.mod_eq_of_lt hname]
        · rw [BitVec.toNat_ofNat, Nat.mod_eq_of_lt hvalue]
        · rw [List.flatMap_cons, EventFieldBytes.toBytes, toLe_ofNat (n := 2) hname,
            toLe_ofNat (n := 2) hvalue]
          simp

/-- The cursor part reads a count, a reserved zero and that many fields. -/
theorem reads_readFieldList : Reads readFieldList (fun _ w => CanonicalFields w) := by
  refine (FieldReader.reads_u16.bind fun count => FieldReader.reads_u16.bind fun reserved =>
    (Reads.failIf _ _).bind fun _ => reads_validateFields count.toNat none).congr fun _ w => ?_
  constructor
  · intro ⟨count, _, v₀, u₀, h, w₀⟩
    obtain ⟨reserved, _, v₁, u₁, h, w₁⟩ := h
    obtain ⟨_, _, v₂, ⟨hreserved, u₂⟩, ⟨fields, hlen, hfields, hchain, hw⟩, w₂⟩ := h
    refine ⟨fields, ?_, hfields, List.isChain_iff_pairwise.mp hchain, ?_⟩
    · rw [hlen]
      exact count.isLt
    · rw [w₀, w₁, w₂, u₀, u₁, u₂, hw, not_not.mp hreserved, hlen]
      rfl
  · rintro ⟨fields, hcount, hfields, hpairwise, rfl⟩
    refine ⟨BitVec.ofNat 16 fields.length, _, _, rfl, ⟨0, _, _, rfl, ⟨(), [], _,
      ⟨not_not.mpr rfl, rfl⟩, ⟨fields, ?_, hfields, List.isChain_iff_pairwise.mpr hpairwise, rfl⟩,
      rfl⟩, rfl⟩, ?_⟩
    · rw [BitVec.toNat_ofNat, Nat.mod_eq_of_lt hcount]
    · rw [toLe_ofNat (n := 2) hcount]
      rfl

/-- **The field list check** accepts exactly the canonical lists. -/
theorem validateEventFieldList_ok_iff {bytes : Bytes} (hlen : bytes.length ≤ usizeMax) :
    validateEventFieldList bytes = .ok () ↔ CanonicalFields bytes := by
  have hread := reads_run_finishBytes reads_readFieldList (sound_new hlen) EncodeError.invalidEvent
    ()
  rw [rest_new] at hread
  rw [← hread, validateEventFieldList, bind_ok_iff]
  exact ⟨fun ⟨⟨_, r⟩, hrun, hfin⟩ => ⟨r, hrun, hfin⟩, fun ⟨r, hrun, hfin⟩ => ⟨((), r), hrun, hfin⟩⟩

end

end AvmSdk.Sdk
