import AvmSdk.Sdk.Output.Fields
import Mathlib.Algebra.Order.BigOperators.Group.List
import Mathlib.Data.Set.List

/-!
# The encoder of event fields

`encodeEventFields`, with which contracts pack the fields of an event.

* `EventField.packed`: a field as it stands in a packed list.
* `encodeEventFields_ok_iff`: the encoder succeeds exactly on lists with strictly ascending names
  whose lengths fit their prefixes, and then with the packed list.
* `validFieldValue_iff`, `EventFieldBytes.valid_iff`: the values and fields that the check of a list
  accepts are the packed ones.
* `validateEventFieldList_iff_encoded`: the check accepts exactly the image of the encoder.
-/

namespace AvmSdk.Sdk

open Wire

/-- Source: `output.rs` `EventValue` -/
inductive EventValue
  | null
  | bool (value : Bool)
  | u64 (value : U64)
  | i64 (value : BitVec 64)
  | u128 (value : U128)
  | i128 (value : BitVec 128)
  | text (value : String)
  | data (value : Bytes)
  | address (value : AccountAddress)

/-- Source: `output.rs` `EventField` -/
structure EventField where
  name : String
  value : EventValue

/-- The kind and the bytes of a value.
Source: `output.rs` `encode_event_value`, `let encoded` -/
def EventValue.encoded : EventValue → U8 × Bytes
  | null => (0, [])
  | bool value => (1, [if value then 1 else 0])
  | u64 value => (2, toLe value)
  | i64 value => (3, toLe value)
  | u128 value => (4, toLe value)
  | i128 value => (5, toLe value)
  | text value => (6, asBytes value)
  | data value => (7, value)
  | address value => (8, value.dappId.val ++ value.accountId.val)

/-- Source: `output.rs` `encode_event_value` -/
def encodeEventValue (value : EventValue) : Except EncodeError (U8 × Bytes) := do
  let encoded := value.encoded
  let _ ← lenU16 encoded.2.length
  pure encoded

/-- The loop over the fields, with the name before.
Source: `output.rs` `encode_event_fields`, `for field in fields` -/
def encodeFields : Option Bytes → List EventField → Except EncodeError Bytes
  | _, [] => pure []
  | previousName, field :: fields => do
      let name := asBytes field.name
      failIf (previousName.any (fun previous => !decide (previous < name)) = true)
        EncodeError.invalidEvent
      let nameLen ← lenU16 name.length
      let (kind, value) ← encodeEventValue field.value
      let valueLen ← lenU16 value.length
      let rest ← encodeFields (some name) fields
      pure (toLe nameLen ++ (kind :: (toLe valueLen ++ (name ++ value))) ++ rest)

/-- Source: `output.rs` `encode_event_fields` -/
def encodeEventFields (fields : List EventField) : Except EncodeError Bytes := do
  let fieldCount ← lenU16 fields.length
  let bytes ← encodeFields none fields
  pure (toLe fieldCount ++ (toLe (0 : U16) ++ bytes))

/-- A field as it stands in a packed list. -/
def EventField.packed (field : EventField) : EventFieldBytes :=
  ⟨asBytes field.name, field.value.encoded.1, field.value.encoded.2⟩

/-- The lengths of a field fit their prefixes. -/
def EventField.Fits (field : EventField) : Prop :=
  field.packed.name.length < 2 ^ 16 ∧ field.packed.value.length < 2 ^ 16

instance (field : EventField) : Decidable field.Fits := inferInstanceAs (Decidable (_ ∧ _))

/-- A value is encoded if its bytes are few enough. -/
theorem encodeEventValue_ok_iff {value : EventValue} {encoded : U8 × Bytes} :
    encodeEventValue value = .ok encoded ↔
      value.encoded.2.length < 2 ^ 16 ∧ value.encoded = encoded := by
  simp only [encodeEventValue, bind_ok_iff, pure_ok_iff, lenU16_ok_iff]
  constructor
  · rintro ⟨_, ⟨hlen, -⟩, h⟩
    exact ⟨hlen, h⟩
  · rintro ⟨hlen, h⟩
    exact ⟨_, ⟨hlen, rfl⟩, h⟩

/-- The loop succeeds exactly when the fields fit and their names ascend from the name before. -/
theorem encodeFields_ok_iff {previousName : Option Bytes} {fields : List EventField} {b : Bytes} :
    encodeFields previousName fields = .ok b ↔ (∀ f ∈ fields, f.Fits) ∧
      (previousName.toList ++ fields.map fun f => f.packed.name).IsChain (· < ·) ∧
      fields.flatMap (fun f => f.packed.toBytes) = b := by
  induction fields generalizing previousName b with
  | nil =>
      rw [encodeFields, pure_ok_iff]
      cases previousName <;> simp
  | cons field fields ih =>
      rw [List.map_cons, isChain_toList_append_cons, List.forall_mem_cons, List.flatMap_cons]
      simp only [encodeFields, bind_ok_iff, failIf_ok_iff, lenU16_ok_iff, encodeEventValue_ok_iff,
        pure_ok_iff, ih]
      constructor
      · rintro ⟨_, hname, nameLen, ⟨hlen, rfl⟩, ⟨kind, value⟩, ⟨-, hvalue⟩, valueLen,
          ⟨hvlen, rfl⟩, rest, ⟨hfits, hchain, rfl⟩, rfl⟩
        have hkind : field.packed.kind = kind := congrArg Prod.fst hvalue
        have hval : field.packed.value = value := congrArg Prod.snd hvalue
        refine ⟨⟨⟨hlen, hval ▸ hvlen⟩, hfits⟩, ⟨hname, hchain⟩, ?_⟩
        rw [EventFieldBytes.toBytes, hkind, hval, toLe_ofNat (n := 2) hlen, toLe_ofNat (n := 2) hvlen]
        rfl
      · rintro ⟨⟨⟨hlen, hvlen⟩, hfits⟩, ⟨hname, hchain⟩, rfl⟩
        refine ⟨(), hname, _, ⟨hlen, rfl⟩, field.value.encoded, ⟨hvlen, rfl⟩, _, ⟨hvlen, rfl⟩, _,
          ⟨hfits, hchain, rfl⟩, ?_⟩
        rw [EventFieldBytes.toBytes, ← toLe_ofNat (n := 2) hlen, ← toLe_ofNat (n := 2) hvlen]
        rfl

/-- **The encoder of event fields.** -/
theorem encodeEventFields_ok_iff {fields : List EventField} {b : Bytes} :
    encodeEventFields fields = .ok b ↔ fields.length < 2 ^ 16 ∧ (∀ f ∈ fields, f.Fits) ∧
      (fields.map fun f => f.packed.name).Pairwise (· < ·) ∧
      leBytes 2 fields.length ++ (toLe (0 : U16) ++ fields.flatMap fun f => f.packed.toBytes) =
        b := by
  simp only [encodeEventFields, bind_ok_iff, lenU16_ok_iff, encodeFields_ok_iff, pure_ok_iff,
    Option.toList_none, List.nil_append, List.isChain_iff_pairwise]
  constructor
  · rintro ⟨_, ⟨hlen, rfl⟩, _, ⟨hfits, hnames, rfl⟩, rfl⟩
    exact ⟨hlen, hfits, hnames, by rw [toLe_ofNat (n := 2) hlen]⟩
  · rintro ⟨hlen, hfits, hnames, rfl⟩
    exact ⟨_, ⟨hlen, rfl⟩, _, ⟨hfits, hnames, rfl⟩, by rw [toLe_ofNat (n := 2) hlen]⟩

/-! ## The image of the encoder -/

/-- The byte strings in UTF-8 are those of strings. -/
theorem isUtf8_iff {bytes : Bytes} : IsUtf8 bytes ↔ ∃ s : String, asBytes s = bytes := by
  have hto : UInt8.toBitVec ∘ UInt8.ofBitVec = id := rfl
  have hof : UInt8.ofBitVec ∘ UInt8.toBitVec = id := rfl
  unfold IsUtf8 asBytes
  rw [ByteArray.validateUTF8_eq_true_iff]
  constructor
  · intro h
    refine ⟨String.ofByteArray _ h, ?_⟩
    rw [List.toList_toArray, List.map_map, hto, List.map_id]
  · rintro ⟨s, rfl⟩
    rw [List.map_map, hof, List.map_id, Array.toArray_toList]
    exact s.isValidUTF8

/-- A value is determined by its kind and its bytes. -/
theorem EventValue.encoded_injective : Function.Injective EventValue.encoded := by
  intro v w h
  cases v <;> cases w <;> simp [encoded] at h
  case null.null => rfl
  case bool.bool a b => cases a <;> cases b <;> simp at h ⊢
  case u64.u64 => rw [toLe_inj (by decide) h]
  case i64.i64 => rw [toLe_inj (by decide) h]
  case u128.u128 => rw [toLe_inj (by decide) h]
  case i128.i128 => rw [toLe_inj (by decide) h]
  case text.text => rw [asBytes_inj h]
  case data.data => rw [h]
  case address.address => rw [AccountAddress.toBytes_injective h]

/-- **The values of a kind.** The bytes that are valid for a kind are those of its values. -/
theorem validFieldValue_iff {kind : U8} {value : Bytes} :
    ValidFieldValue kind value ↔ ∃ v : EventValue, v.encoded = (kind, value) := by
  constructor
  · intro h
    unfold ValidFieldValue at h
    have hkind {n : ℕ} (hn : n < 256) (hk : kind.toNat = n) : BitVec.ofNat 8 n = kind := by
      apply BitVec.eq_of_toNat_eq
      rw [hk, BitVec.toNat_ofNat, Nat.mod_eq_of_lt hn]
    split at h
    next hk => exact ⟨.null, Prod.ext (hkind (by decide) hk) h.symm⟩
    next hk =>
      rcases h with rfl | rfl
      · exact ⟨.bool false, Prod.ext (hkind (by decide) hk) rfl⟩
      · exact ⟨.bool true, Prod.ext (hkind (by decide) hk) rfl⟩
    next hk => exact ⟨.u64 (ofLe 64 value), Prod.ext (hkind (by decide) hk) (toLe_ofLe (by omega))⟩
    next hk => exact ⟨.i64 (ofLe 64 value), Prod.ext (hkind (by decide) hk) (toLe_ofLe (by omega))⟩
    next hk => exact ⟨.u128 (ofLe 128 value), Prod.ext (hkind (by decide) hk) (toLe_ofLe (by omega))⟩
    next hk => exact ⟨.i128 (ofLe 128 value), Prod.ext (hkind (by decide) hk) (toLe_ofLe (by omega))⟩
    next hk =>
      obtain ⟨s, hs⟩ := isUtf8_iff.mp h
      exact ⟨.text s, Prod.ext (hkind (by decide) hk) hs⟩
    next hk => exact ⟨.data value, Prod.ext (hkind (by decide) hk) rfl⟩
    next hk =>
      obtain ⟨a, ha⟩ := AccountAddress.exists_toBytes h
      exact ⟨.address a, Prod.ext (hkind (by decide) hk) ha⟩
    next => exact absurd h not_false
  · rintro ⟨v, hv⟩
    obtain ⟨rfl, rfl⟩ := Prod.mk.inj hv
    cases v with
    | null => rfl
    | bool b => cases b <;> simp [ValidFieldValue]
    | u64 x => exact length_toLe x
    | i64 x => exact length_toLe x
    | u128 x => exact length_toLe x
    | i128 x => exact length_toLe x
    | text s => exact isUtf8_iff.mpr ⟨s, rfl⟩
    | data b => trivial
    | address a => exact a.length_toBytes

/-- A field is determined by its packed form. -/
theorem EventField.packed_injective : Function.Injective EventField.packed := by
  rintro ⟨name, value⟩ ⟨name', value'⟩ h
  obtain ⟨hname, hkind, hvalue⟩ := EventFieldBytes.mk.inj h
  obtain rfl := asBytes_inj hname
  obtain rfl := EventValue.encoded_injective (Prod.ext hkind hvalue)
  rfl

/-- **The packed fields** that may stand in a list are those of fields that fit. -/
theorem EventFieldBytes.valid_iff {f : EventFieldBytes} :
    f.Valid ↔ ∃ field : EventField, field.Fits ∧ field.packed = f := by
  constructor
  · rintro ⟨hname, hvalue, hutf8, hok⟩
    obtain ⟨name, hn⟩ := isUtf8_iff.mp hutf8
    obtain ⟨value, hv⟩ := validFieldValue_iff.mp hok
    have hpacked : EventField.packed ⟨name, value⟩ = f := by
      unfold EventField.packed
      rw [hn, hv]
    refine ⟨⟨name, value⟩, ?_, hpacked⟩
    unfold EventField.Fits
    rw [hpacked]
    exact ⟨hname, hvalue⟩
  · rintro ⟨field, ⟨hname, hvalue⟩, rfl⟩
    exact ⟨hname, hvalue, isUtf8_iff.mpr ⟨_, rfl⟩, validFieldValue_iff.mpr ⟨_, rfl⟩⟩

/-- A packed field is delimited by its lengths. -/
theorem EventFieldBytes.toBytes_append_inj {f g : EventFieldBytes} {u v : Bytes} (hf : f.Valid)
    (hg : g.Valid) (h : f.toBytes ++ u = g.toBytes ++ v) : f = g ∧ u = v := by
  unfold toBytes at h
  simp only [List.append_assoc, List.cons_append] at h
  obtain ⟨hnameLen, h⟩ := List.append_inj h (by rw [length_leBytes, length_leBytes])
  obtain ⟨hkind, h⟩ := List.cons.inj h
  obtain ⟨hvalueLen, h⟩ := List.append_inj h (by rw [length_leBytes, length_leBytes])
  obtain ⟨hname, h⟩ := List.append_inj h (leBytes_inj hf.name_length hg.name_length hnameLen)
  obtain ⟨hvalue, hrest⟩ := List.append_inj h
    (leBytes_inj hf.value_length hg.value_length hvalueLen)
  obtain ⟨name, kind, value⟩ := f
  exact ⟨EventFieldBytes.mk.injEq .. ▸ ⟨hname, hkind, hvalue⟩, hrest⟩

/-- A list of fields is determined by its length and its packed fields. -/
theorem flatMap_packed_inj {fields fields' : List EventField} (hlen : fields.length = fields'.length)
    (hfits : ∀ f ∈ fields, f.Fits) (hfits' : ∀ f ∈ fields', f.Fits)
    (h : (fields.flatMap fun f => f.packed.toBytes) = fields'.flatMap fun f => f.packed.toBytes) :
    fields = fields' := by
  induction fields generalizing fields' with
  | nil => exact (List.length_eq_zero_iff.mp hlen.symm).symm
  | cons f fields ih =>
      obtain ⟨f', fields', rfl⟩ := List.exists_cons_of_length_eq_add_one hlen.symm
      rw [List.forall_mem_cons] at hfits hfits'
      rw [List.flatMap_cons, List.flatMap_cons] at h
      obtain ⟨hfirst, hrest⟩ := EventFieldBytes.toBytes_append_inj
        (EventFieldBytes.valid_iff.mpr ⟨f, hfits.1, rfl⟩)
        (EventFieldBytes.valid_iff.mpr ⟨f', hfits'.1, rfl⟩) h
      rw [EventField.packed_injective hfirst, ih (Nat.succ.inj hlen) hfits.2 hfits'.2 hrest]

/-- **Different lists have different encodings.** -/
theorem encodeEventFields_inj {fields fields' : List EventField} {b : Bytes}
    (h : encodeEventFields fields = .ok b) (h' : encodeEventFields fields' = .ok b) :
    fields = fields' := by
  obtain ⟨hlen, hfits, -, rfl⟩ := encodeEventFields_ok_iff.mp h
  obtain ⟨hlen', hfits', -, heq⟩ := encodeEventFields_ok_iff.mp h'
  obtain ⟨hcount, hrest⟩ := List.append_inj heq (by rw [length_leBytes, length_leBytes])
  have hfields := List.append_cancel_left hrest
  exact (flatMap_packed_inj (leBytes_inj hlen' hlen hcount) hfits' hfits hfields).symm

/-- The canonical lists are the encodings. -/
theorem canonicalFields_iff {b : Bytes} :
    CanonicalFields b ↔ ∃ fields, encodeEventFields fields = .ok b := by
  simp only [encodeEventFields_ok_iff]
  constructor
  · rintro ⟨packed, hcount, hvalid, hnames, rfl⟩
    have hrange : packed ∈ Set.range (List.map EventField.packed) := by
      rw [Set.range_list_map]
      intro f hf
      obtain ⟨field, -, hfield⟩ := EventFieldBytes.valid_iff.mp (hvalid f hf)
      exact ⟨field, hfield⟩
    obtain ⟨fields, rfl⟩ := hrange
    rw [List.length_map] at hcount
    rw [List.forall_mem_map] at hvalid
    refine ⟨fields, hcount, fun f hf => ?_, ?_, ?_⟩
    · exact ⟨(hvalid f hf).name_length, (hvalid f hf).value_length⟩
    · rw [List.map_map] at hnames
      exact hnames
    · rw [List.length_map, List.flatMap_map]
  · rintro ⟨fields, hcount, hfits, hnames, rfl⟩
    refine ⟨fields.map EventField.packed, ?_, ?_, ?_, ?_⟩
    · rw [List.length_map]
      exact hcount
    · rw [List.forall_mem_map]
      intro f hf
      exact EventFieldBytes.valid_iff.mpr ⟨f, hfits f hf, rfl⟩
    · rw [List.map_map]
      exact hnames
    · rw [List.length_map, List.flatMap_map]

/-- The length of an encoding, by the number of fields. -/
theorem length_le_of_encodeEventFields {fields : List EventField} {b : Bytes}
    (h : encodeEventFields fields = .ok b) : b.length ≤ 4 + fields.length * 2 ^ 18 := by
  obtain ⟨-, hfits, -, rfl⟩ := encodeEventFields_ok_iff.mp h
  have hfield : ∀ n ∈ fields.map fun f => f.packed.toBytes.length, n ≤ 2 ^ 18 := by
    intro n hn
    obtain ⟨f, hf, rfl⟩ := List.mem_map.mp hn
    obtain ⟨hname, hvalue⟩ := hfits f hf
    simp only [EventFieldBytes.toBytes, List.length_append, List.length_cons, length_leBytes]
    omega
  have hsum := List.sum_le_card_nsmul _ _ hfield
  rw [List.length_map, Nat.nsmul_eq_mul] at hsum
  have hreserved : (toLe (0 : U16)).length = 2 := length_toLe 0
  rw [List.length_append, List.length_append, length_leBytes, hreserved, List.length_flatMap]
  omega

/-- **The check of field lists** accepts exactly the image of the encoder: on byte strings that a
slice can hold it succeeds if and only if they encode a list, and that list is unique. So it accepts
what the encoder makes of every list with ascending names whose lengths fit. -/
theorem validateEventFieldList_iff_encoded [Target] :
    (∀ b : Slice, validateEventFieldList b.bytes = .ok () ↔
      ∃! fields, encodeEventFields fields = .ok b.bytes) ∧
    (∀ fields : List EventField, fields.length < 2 ^ 16 → (∀ f ∈ fields, f.Fits) →
      (fields.map fun f => asBytes f.name).Pairwise (· < ·) →
      ∃ b, encodeEventFields fields = .ok b ∧
        (b.length ≤ usizeMax → validateEventFieldList b = .ok ())) ∧
    ∀ (fields fields' : List EventField) (b : Bytes), encodeEventFields fields = .ok b →
      encodeEventFields fields' = .ok b → fields = fields' := by
  have hcheck {b : Bytes} (hb : b.length ≤ usizeMax) :
      validateEventFieldList b = .ok () ↔ ∃ fields, encodeEventFields fields = .ok b := by
    rw [validateEventFieldList_ok_iff hb, canonicalFields_iff]
  refine ⟨fun b => ?_, fun fields hlen hfits hnames => ?_, fun _ _ _ => encodeEventFields_inj⟩
  · rw [hcheck b.length_le]
    constructor
    · rintro ⟨fields, h⟩
      exact ⟨fields, h, fun fields' h' => encodeEventFields_inj h' h⟩
    · rintro ⟨fields, h, -⟩
      exact ⟨fields, h⟩
  · have hencode := encodeEventFields_ok_iff.mpr ⟨hlen, hfits, hnames, rfl⟩
    exact ⟨_, hencode, fun hb => (hcheck hb).mpr ⟨fields, hencode⟩⟩

end AvmSdk.Sdk
