import AvmSdk.Sdk.Input.Frame
import AvmSdk.Wire.Blocks

/-!
# Batch frames

`decodeBatchInput`, the decoder of `ACBI` frames, and the iterator over the messages of a batch.

* `checkMessages`: the validating loop. `checkMessages_ok_iff`: it accepts exactly the regions that
  are acceptable messages end to end, with the table of their offsets.
* `exhausts_messages`: from there the iterator yields these messages.
* `decodeBatchInput_ok_iff`, `batchInput_messages`: the validator and the iterator agree, and the
  message region is partitioned.
-/

namespace AvmSdk.Sdk

open Wire Wire.Cursor

/-- The tag `b"ACBI"`. -/
def acbiMagic : Bytes := [0x41, 0x43, 0x42, 0x49]

/-- The fields `messages` and `offsets` of the source are private; `messageBytes` is the field
`messages`, since `messages` is also the method.
Source: `input.rs` `BatchInput` -/
structure BatchInput where
  context : ExecutionContext
  destination : AccountAddress
  selectedCodeId : Bytes32
  requiredStateOutputMode : StateOutputMode
  extra : CurrencyAmounts
  state : Bytes
  offsets : Bytes
  messageBytes : Bytes
  messageCount : U32
  internalEventResults : Bytes
deriving DecidableEq

/-- Source: `input.rs` `BatchMessageIter` -/
structure BatchMessageIter where
  offsets : Bytes
  messages : Bytes
  index : U32
  count : U32

/-- Source: `input.rs` `BatchInput::messages` -/
def BatchInput.messages (self : BatchInput) : BatchMessageIter :=
  ⟨self.offsets, self.messageBytes, 0, self.messageCount⟩

/-- Source: `input.rs` `BatchMessageIter::size_hint` -/
def BatchMessageIter.sizeHint (self : BatchMessageIter) : ℕ × Option ℕ :=
  let remaining := self.count.toNat - self.index.toNat
  (remaining, some remaining)

section

variable [Target]

/-- Source: `input.rs` `read_offset` -/
def readOffset (bytes : Bytes) (index : U32) : Except DecodeError ℕ := do
  let index ← okOr (usizeTryFrom index) .integerOverflow
  let offset ← okOr (checkedMul index 4) .integerOverflow
  let value ← readU32At bytes offset
  Reader.toUsize value

/-- Source: `input.rs` `BatchMessageIter::next` -/
def BatchMessageIter.next (self : BatchMessageIter) :
    Option (Except DecodeError CanonicalMessage × BatchMessageIter) :=
  if self.index ≥ self.count then none
  else
    let start := readOffset self.offsets self.index
    let stop := readOffset self.offsets (wordSaturatingAdd self.index 1)
    let item := do
      let start ← start
      let stop ← stop
      let bytes ← okOr (getRange self.messages start stop) .invalidLength
      decodeCanonicalMessage bytes
    some (item, { self with index := wordSaturatingAdd self.index 1 })

/-- The loop of `decode_batch_input` over `index..message_count`, with the number of rounds that
are left.
Source: `input.rs` `decode_batch_input`, `for index in 0..message_count` -/
def checkMessages (offsets messages : Bytes) (destination : AccountAddress) :
    ℕ → U32 → ℕ → Except DecodeError Unit
  | 0, _, _ => .ok ()
  | rounds + 1, index, previous => do
      let stop ← readOffset offsets (index + 1)
      failIf (stop ≤ previous ∨ stop > messages.length) .invalidLength
      let bytes ← okOr (getRange messages previous stop) .invalidLength
      let message ← decodeCanonicalMessage bytes
      failIf (message.destination ≠ destination) .destinationMismatch
      failIf (message.isCallback ∨ message.hasCallbackRequest) .callbackForbidden
      checkMessages offsets messages destination rounds (index + 1) stop

/-- The cursor part of `decode_batch_input`. -/
def readBatchInput : ReadM BatchInput := do
  readMagic acbiMagic
  let context ← readContext
  let destination ← readAddress
  let selectedCodeId ← Reader.fixed 32
  let requiredStateOutputMode ← readRequiredMode
  let extra ← readCurrencyAmounts
  let state ← Reader.lengthPrefixedU32
  let messageCount ← Reader.u32
  let offsetCount ← okOr (wordCheckedAdd messageCount 1) DecodeError.integerOverflow
  let offsetCount ← okOr (usizeTryFrom offsetCount) DecodeError.integerOverflow
  let offsetsLen ← okOr (checkedMul offsetCount 4) DecodeError.integerOverflow
  let offsets ← Reader.take offsetsLen
  let first ← readOffset offsets 0
  failIf (first ≠ 0) DecodeError.invalidLength
  let messagesLen ← readOffset offsets messageCount
  let messages ← Reader.take messagesLen
  let internalEventResults ← Reader.lengthPrefixedU32
  pure ⟨context, destination, selectedCodeId, requiredStateOutputMode, extra, state, offsets,
    messages, messageCount, internalEventResults⟩

/-- Source: `input.rs` `decode_batch_input` -/
def decodeBatchInput (bytes : Bytes) : Except DecodeError BatchInput := do
  let (input, reader) ← readBatchInput (Reader.new bytes)
  reader.finish
  checkMessages input.offsets input.messageBytes input.destination input.messageCount.toNat 0 0
  pure input

/-! ## Offsets -/

/-- A word that stands at an offset of a byte string is read there. -/
theorem readWordAt_of_drop {w : ℕ} (hw : 8 ∣ w) {bytes t : Bytes} {offset : ℕ} {x : BitVec w}
    (hmax : bytes.length ≤ usizeMax) (hle : offset ≤ bytes.length)
    (h : bytes.drop offset = toLe x ++ t) : readWordAt w bytes offset = .ok x := by
  have hlen := congrArg List.length h
  rw [List.length_drop, List.length_append, length_toLe] at hlen
  have hread : readFixedAt (w / 8) bytes offset = .ok ⟨toLe x, length_toLe x⟩ := by
    rw [readFixedAt_ok_iff, h, List.take_left' (length_toLe x)]
    exact ⟨⟨by omega, by omega⟩, rfl⟩
  rw [readWordAt, hread, ok_bind, ofLe_toLe hw]
  rfl

/-- An offset of a table is the word at its index. -/
theorem readOffset_eq {words : List U32} (hmax : (words.flatMap toLe).length ≤ usizeMax)
    {index : U32} {word : U32} (h : words[index.toNat]? = some word) :
    readOffset (words.flatMap toLe) index = .ok word.toNat := by
  obtain ⟨hlt, hword⟩ := List.getElem?_eq_some_iff.mp h
  have hlen : ∀ ws : List U32, (ws.flatMap toLe).length = ws.length * 4 :=
    word32.length_flatMap_enc
  have hsplit : words = words.take index.toNat ++ word :: words.drop (index.toNat + 1) := by
    rw [← hword, List.getElem_cons_drop, List.take_append_drop]
  have htake : (words.take index.toNat).length = index.toNat := by
    rw [List.length_take, Nat.min_eq_left (Nat.le_of_lt hlt)]
  have hdrop : (words.flatMap toLe).drop (index.toNat * 4) =
      toLe word ++ (words.drop (index.toNat + 1)).flatMap toLe := by
    conv_lhs => rw [hsplit, List.flatMap_append, List.flatMap_cons]
    rw [List.drop_left' (by rw [hlen, htake])]
  have hall := hlen words
  have hmul : checkedMul index.toNat 4 = some (index.toNat * 4) := by
    rw [checkedMul_eq_some]
    exact ⟨by omega, rfl⟩
  have hread := readWordAt_of_drop (by norm_num) hmax (by omega) hdrop
  rw [readOffset, usizeTryFrom_eq, okOr_some, ok_bind, hmul, okOr_some, ok_bind, readU32At, hread,
    ok_bind, toUsize_ok_iff]

/-! ## The validating loop -/

/-- A message that a batch may carry: canonical, addressed to the batch's destination, neither a
callback nor a request for one. -/
structure BatchMessage (destination : AccountAddress) (m : CanonicalMessage) : Prop where
  decodes : decodeCanonicalMessage m.canonicalBytes = .ok m
  destination_eq : m.destination = destination
  not_callback : ¬ m.isCallback
  not_request : ¬ m.hasCallbackRequest

/-- A decoded message keeps the bytes it was decoded from, and there are some. -/
theorem canonicalBytes_of_decode {bytes : Bytes} (hmax : bytes.length ≤ usizeMax)
    {m : CanonicalMessage} (h : decodeCanonicalMessage bytes = .ok m) :
    m.canonicalBytes = bytes ∧ 0 < bytes.length := by
  refine ⟨((decodeCanonicalMessage_ok_iff ⟨bytes, hmax⟩ m).mp h).2.1, ?_⟩
  cases bytes with
  | nil => cases h
  | cons tag tail => exact Nat.succ_pos _

/-- One round of the loop. -/
theorem checkMessages_succ_ok_iff {words : List U32} {messages : Bytes}
    {destination : AccountAddress} (hmax : (words.flatMap toLe).length ≤ usizeMax) {rounds p : ℕ}
    {index word : U32} (hword : words[(index + 1).toNat]? = some word) :
    checkMessages (words.flatMap toLe) messages destination (rounds + 1) index p = .ok () ↔
      (p < word.toNat ∧ word.toNat ≤ messages.length) ∧
      ∃ m, decodeCanonicalMessage (messages.extract p word.toNat) = .ok m ∧
        m.destination = destination ∧ ¬ m.isCallback ∧ ¬ m.hasCallbackRequest ∧
        checkMessages (words.flatMap toLe) messages destination rounds (index + 1) word.toNat
          = .ok () := by
  simp only [checkMessages, readOffset_eq hmax hword, ok_bind, bind_ok_iff, failIf_ok_iff,
    okOr_ok_iff, getRange_eq_some, exists_const, not_or, not_not, Nat.not_le, Nat.not_lt, gt_iff_lt]
  constructor
  · rintro ⟨⟨hlt, hle⟩, _, ⟨-, rfl⟩, m, hm, hdest, ⟨hcb, hreq⟩, hrest⟩
    exact ⟨⟨hlt, hle⟩, m, hm, hdest, hcb, hreq, hrest⟩
  · rintro ⟨⟨hlt, hle⟩, m, hm, hdest, hcb, hreq, hrest⟩
    exact ⟨⟨hlt, hle⟩, _, ⟨⟨Nat.le_of_lt hlt, hle⟩, rfl⟩, m, hm, hdest, ⟨hcb, hreq⟩, hrest⟩

/-- **The validating loop** accepts, from an offset on, exactly the acceptable messages end to end
whose ends are what is left of the table. -/
theorem checkMessages_ok_iff {words : List U32} {messages : Bytes} {destination : AccountAddress}
    (hmax : (words.flatMap toLe).length ≤ usizeMax) (hmessages : messages.length ≤ usizeMax)
    (hwords : words.length < 2 ^ 32) {rounds p : ℕ} {index : U32} (hp : p ≤ messages.length)
    (hrounds : index.toNat + rounds + 1 = words.length) :
    checkMessages (words.flatMap toLe) messages destination rounds index p = .ok () ↔
      ∃ ms : List CanonicalMessage, ms.length = rounds ∧ (∀ m ∈ ms, BatchMessage destination m) ∧
        (words.drop (index.toNat + 1)).map BitVec.toNat =
          blockEnds p (ms.map CanonicalMessage.canonicalBytes) ∧
        (ms.map CanonicalMessage.canonicalBytes).flatten <+: messages.drop p := by
  induction rounds generalizing index p with
  | zero =>
      have hdrop : words.drop (index.toNat + 1) = [] := List.drop_eq_nil_of_le (by omega)
      constructor
      · intro _
        exact ⟨[], rfl, by simp, by rw [hdrop]; rfl, List.nil_prefix⟩
      · intro _
        rfl
  | succ rounds ih =>
      have hindex : (index + 1).toNat = index.toNat + 1 := by
        rw [BitVec.toNat_add]
        exact Nat.mod_eq_of_lt (by show _ + 1 < _; omega)
      obtain ⟨word, hword⟩ : ∃ word, words[(index + 1).toNat]? = some word :=
        ⟨_, List.getElem?_eq_getElem (by omega)⟩
      have hdrop : words.drop (index.toNat + 1) = word :: words.drop ((index + 1).toNat + 1) := by
        obtain ⟨hlt, rfl⟩ := List.getElem?_eq_some_iff.mp hword
        rw [← hindex, List.getElem_cons_drop]
      rw [checkMessages_succ_ok_iff hmax hword]
      constructor
      · rintro ⟨⟨hlt, hle⟩, m, hm, hdest, hcb, hreq, hrest⟩
        obtain ⟨ms, hlen, hms, hends, hpre⟩ :=
          (ih hle (by omega)).mp hrest
        have hextract : (messages.extract p word.toNat).length = word.toNat - p := by
          rw [List.extract_eq_take_drop, List.length_take, List.length_drop]
          omega
        obtain ⟨hbytes, -⟩ := canonicalBytes_of_decode (by omega) hm
        have hend : p + m.canonicalBytes.length = word.toNat := by
          rw [hbytes, hextract]
          omega
        refine ⟨m :: ms, by rw [List.length_cons, hlen], ?_, ?_, ?_⟩
        · intro m' hm'
          rcases List.mem_cons.mp hm' with rfl | hm'
          · exact ⟨hbytes ▸ hm, hdest, hcb, hreq⟩
          · exact hms m' hm'
        · rw [hdrop, List.map_cons, hends, List.map_cons, blockEnds, hend]
        · rw [List.map_cons, List.flatten_cons, hbytes, ← extract_append_drop (Nat.le_of_lt hlt)]
          exact (List.prefix_append_right_inj _).mpr hpre
      · rintro ⟨ms, hlen, hms, hends, hpre⟩
        obtain ⟨m, ms, rfl⟩ := List.exists_cons_of_length_eq_add_one hlen
        rw [hdrop, List.map_cons, List.map_cons, blockEnds] at hends
        obtain ⟨hword', hends⟩ := List.cons.inj hends
        rw [List.map_cons, List.flatten_cons] at hpre
        have hfirst : m.canonicalBytes <+: messages.drop p := (List.prefix_append _ _).trans hpre
        have hle := hfirst.length_le
        rw [List.length_drop] at hle
        have hm := hms m List.mem_cons_self
        obtain ⟨-, hpos⟩ := canonicalBytes_of_decode (by omega) hm.decodes
        have hextract : messages.extract p word.toNat = m.canonicalBytes := by
          rw [List.extract_eq_take_drop, hword', Nat.add_sub_cancel_left]
          exact (List.prefix_iff_eq_take.mp hfirst).symm
        refine ⟨⟨by omega, by omega⟩, m, hextract ▸ hm.decodes, hm.destination_eq,
          hm.not_callback, hm.not_request, ?_⟩
        refine (ih (by omega) (by omega)).mpr ⟨ms, Nat.succ.inj hlen, ?_, ?_, ?_⟩
        · intro m' hm'
          exact hms m' (List.mem_cons_of_mem _ hm')
        · rw [hends, hword']
        · rw [← extract_append_drop (show p ≤ word.toNat by omega), hextract] at hpre
          exact (List.prefix_append_right_inj _).mp hpre

/-! ## The iterator -/

/-- `BatchMessageIter::next` on a table whose entry at the index is `p` and whose next entry is the
end of the message that stands at `p`. -/
theorem next_of_message {words : List U32} {messages : Bytes} {count index : U32}
    (hmax : (words.flatMap toLe).length ≤ usizeMax) (hindex : index.toNat < count.toNat)
    {start stop : U32} (hstart : words[index.toNat]? = some start)
    (hstop : words[index.toNat + 1]? = some stop) {m : CanonicalMessage}
    (hm : decodeCanonicalMessage m.canonicalBytes = .ok m)
    (hlen : stop.toNat = start.toNat + m.canonicalBytes.length)
    (hpre : m.canonicalBytes <+: messages.drop start.toNat) (hle : start.toNat ≤ messages.length) :
    BatchMessageIter.next ⟨words.flatMap toLe, messages, index, count⟩ =
      some (.ok m, ⟨words.flatMap toLe, messages, wordSaturatingAdd index 1, count⟩) := by
  have hcount := count.isLt
  have hsucc : (wordSaturatingAdd index 1).toNat = index.toNat + 1 :=
    toNat_wordSaturatingAdd (by show _ + 1 < _; omega)
  have hget : getRange messages start.toNat stop.toNat = some m.canonicalBytes := by
    have hbound := hpre.length_le
    rw [List.length_drop] at hbound
    rw [getRange_eq_some, hlen]
    refine ⟨⟨Nat.le_add_right _ _, by omega⟩, ?_⟩
    rw [List.extract_eq_take_drop, Nat.add_sub_cancel_left]
    exact (List.prefix_iff_eq_take.mp hpre).symm
  unfold BatchMessageIter.next
  rw [if_neg (by show ¬ count ≤ index; rw [BitVec.le_def]; omega)]
  rw [← hsucc] at hstop
  simp only [readOffset_eq hmax hstart, readOffset_eq hmax hstop, ok_bind, hget, okOr_some, hm]

/-- From the start of a message on, the iterator yields the messages whose ends are what is left
of the table. -/
theorem exhausts_messages {words : List U32} {messages : Bytes} {count : U32}
    (hmax : (words.flatMap toLe).length ≤ usizeMax) {ms : List CanonicalMessage} {index : U32}
    {p : ℕ} (hcount : index.toNat + ms.length = count.toNat) (hp : p ≤ messages.length)
    (hms : ∀ m ∈ ms, decodeCanonicalMessage m.canonicalBytes = .ok m)
    (hends : (words.drop index.toNat).map BitVec.toNat =
      p :: blockEnds p (ms.map CanonicalMessage.canonicalBytes))
    (hpre : (ms.map CanonicalMessage.canonicalBytes).flatten <+: messages.drop p) :
    Exhausts BatchMessageIter.next ⟨words.flatMap toLe, messages, index, count⟩
      (ms.map Except.ok) := by
  induction ms generalizing index p with
  | nil =>
      apply exhausts_nil
      unfold BatchMessageIter.next
      rw [if_pos (by show count ≤ index; rw [BitVec.le_def, ← hcount]; exact le_rfl)]
  | cons m ms ih =>
      rw [List.length_cons] at hcount
      rw [List.map_cons, List.flatten_cons] at hpre
      have hlt := count.isLt
      have hsucc : (wordSaturatingAdd index 1).toNat = index.toNat + 1 :=
        toNat_wordSaturatingAdd (by show _ + 1 < _; omega)
      have hfirst : m.canonicalBytes <+: messages.drop p := (List.prefix_append _ _).trans hpre
      have hle := hfirst.length_le
      rw [List.length_drop] at hle
      have hentry : ∀ i, ((words.drop index.toNat).map BitVec.toNat)[i]? =
          (words[index.toNat + i]?).map BitVec.toNat := by
        intro i
        rw [List.getElem?_map, List.getElem?_drop]
      have h₀ := hentry 0
      have h₁ := hentry 1
      rw [hends, List.map_cons, blockEnds] at h₀ h₁
      obtain ⟨start, hstart, hstart'⟩ := Option.map_eq_some_iff.mp h₀.symm
      obtain ⟨stop, hstop, hstop'⟩ := Option.map_eq_some_iff.mp h₁.symm
      refine exhausts_cons (next_of_message hmax (by omega) hstart hstop
        (hms m List.mem_cons_self) (by rw [hstop', hstart']) (hstart' ▸ hfirst)
        (hstart' ▸ hp)) ?_
      apply ih (p := p + m.canonicalBytes.length)
      · rw [hsucc]
        omega
      · omega
      · intro m' hm'
        exact hms m' (List.mem_cons_of_mem _ hm')
      · rw [hsucc, ← List.drop_drop, List.map_drop, hends, List.map_cons, blockEnds]
        rfl
      · rw [← extract_append_drop (Nat.le_add_right p m.canonicalBytes.length),
          List.extract_eq_take_drop, Nat.add_sub_cancel_left,
          ← List.prefix_iff_eq_take.mp hfirst] at hpre
        exact (List.prefix_append_right_inj _).mp hpre

/-- A step of the iterator moves on by one message. -/
theorem next_index {it it' : BatchMessageIter} {item : Except DecodeError CanonicalMessage}
    (h : it.next = some (item, it')) :
    it'.index.toNat = it.index.toNat + 1 ∧ it'.count = it.count := by
  have hcount := it.count.isLt
  unfold BatchMessageIter.next at h
  by_cases hindex : it.index ≥ it.count
  · rw [if_pos hindex] at h
    cases h
  · rw [if_neg hindex] at h
    cases h
    have hlt : it.index.toNat < it.count.toNat := by
      rw [ge_iff_le, BitVec.le_def] at hindex
      omega
    have hsucc : (wordSaturatingAdd it.index 1).toNat = it.index.toNat + 1 :=
      toNat_wordSaturatingAdd (by show _ + 1 < _; omega)
    exact ⟨hsucc, rfl⟩

/-- After a run, `size_hint` has gone down by the number of items yielded. -/
theorem sizeHint_of_yields {it it' : BatchMessageIter}
    {items : List (Except DecodeError CanonicalMessage)}
    (h : Yields BatchMessageIter.next it items it') :
    it'.sizeHint = (it.sizeHint.1 - items.length, some (it.sizeHint.1 - items.length)) := by
  induction h with
  | done s => rfl
  | @step s s' t item items hnext hs ih =>
      obtain ⟨hindex, hcount⟩ := next_index hnext
      have hstep : s'.sizeHint.1 = s.sizeHint.1 - 1 := by
        show s'.count.toNat - s'.index.toNat = s.count.toNat - s.index.toNat - 1
        rw [hcount, hindex, Nat.sub_sub]
      rw [ih, hstep, Nat.sub_sub, List.length_cons, Nat.add_comm 1]

/-! ## Frames -/

/-- The bytes of a batch frame. -/
def BatchInput.toBytes (x : BatchInput) : Bytes :=
  acbiMagic ++ (x.context.toBytes ++ (x.destination.toBytes ++ (x.selectedCodeId.val ++
    (x.requiredStateOutputMode.toU8 :: (zeros 7).val ++ (toLe x.extra.count ++ x.extra.bytes ++
      (lengthPrefixed 4 x.state ++ (toLe x.messageCount ++ (x.offsets ++ (x.messageBytes ++
        lengthPrefixed 4 x.internalEventResults)))))))))

/-- What the cursor part of the decoder checks. -/
structure BatchInput.Framed (x : BatchInput) : Prop where
  extra_ok : x.extra.WellFormed
  state_length : x.state.length < 2 ^ 32
  count_lt : x.messageCount.toNat + 1 < 2 ^ 32
  offsets_length : x.offsets.length = (x.messageCount.toNat + 1) * 4
  offsets_le : x.offsets.length ≤ usizeMax
  first_offset : readOffset x.offsets 0 = .ok 0
  last_offset : readOffset x.offsets x.messageCount = .ok x.messageBytes.length
  internalEventResults_length : x.internalEventResults.length < 2 ^ 32

/-- The cursor part reads what is framed. -/
theorem reads_readBatchInput : Reads readBatchInput (fun x w => x.Framed ∧ w = x.toBytes) := by
  refine ((reads_readMagic rfl).bind fun _ => reads_readContext.bind fun context =>
    reads_readAddress.bind fun destination => (reads_fixed 32).bind fun codeId =>
    reads_readRequiredMode.bind fun mode => reads_readCurrencyAmounts.bind fun extra =>
    reads_lengthPrefixedU32.bind fun state => reads_u32.bind fun count =>
    (Reads.lift _).bind fun offsetCount => (Reads.lift _).bind fun offsetCount' =>
    (Reads.lift _).bind fun offsetsLen => (reads_take offsetsLen).bind fun offsets =>
    (Reads.lift _).bind fun first => (Reads.failIf _ _).bind fun _ =>
    (Reads.lift _).bind fun messagesLen => (reads_take messagesLen).bind fun messages =>
    reads_lengthPrefixedU32.bind fun results => Reads.pure _).congr fun x w => ?_
  constructor
  · intro ⟨_, _, v₀, u₀, h, w₀⟩
    obtain ⟨context, _, v₁, u₁, h, w₁⟩ := h
    obtain ⟨destination, _, v₂, u₂, h, w₂⟩ := h
    obtain ⟨codeId, _, v₃, u₃, h, w₃⟩ := h
    obtain ⟨mode, _, v₄, u₄, h, w₄⟩ := h
    obtain ⟨extra, _, v₅, ⟨hextra, u₅⟩, h, w₅⟩ := h
    obtain ⟨state, _, v₆, ⟨hstate, u₆⟩, h, w₆⟩ := h
    obtain ⟨count, _, v₇, u₇, h, w₇⟩ := h
    obtain ⟨offsetCount, _, v₈, ⟨hcount, u₈⟩, h, w₈⟩ := h
    obtain ⟨offsetCount', _, v₉, ⟨hcount', u₉⟩, h, w₉⟩ := h
    obtain ⟨offsetsLen, _, v₁₀, ⟨hlen, u₁₀⟩, h, w₁₀⟩ := h
    obtain ⟨offsets, _, v₁₁, ⟨u₁₁, hoffsets⟩, h, w₁₁⟩ := h
    obtain ⟨first, _, v₁₂, ⟨hfirst, u₁₂⟩, h, w₁₂⟩ := h
    obtain ⟨_, _, v₁₃, ⟨hzero, u₁₃⟩, h, w₁₃⟩ := h
    obtain ⟨messagesLen, _, v₁₄, ⟨hlast, u₁₄⟩, h, w₁₄⟩ := h
    obtain ⟨messages, _, v₁₅, ⟨u₁₅, hmessages⟩, h, w₁₅⟩ := h
    obtain ⟨results, _, v₁₆, ⟨hresults, u₁₆⟩, ⟨rfl, u₁₇⟩, w₁₆⟩ := h
    rw [okOr_ok_iff, wordCheckedAdd_eq_some] at hcount
    rw [okOr_ok_iff, usizeTryFrom_eq, Option.some.injEq] at hcount'
    rw [okOr_ok_iff, checkedMul_eq_some] at hlen
    rw [not_not] at hzero
    have hlt := offsetCount.isLt
    have hone : (1 : U32).toNat = 1 := rfl
    rw [hone] at hcount
    rw [← u₁₁] at hoffsets
    rw [← u₁₅] at hmessages
    refine ⟨⟨hextra, hstate, ?_, ?_, ?_, hzero ▸ hfirst, hmessages ▸ hlast, hresults⟩, ?_⟩
    · show count.toNat + 1 < 2 ^ 32
      omega
    · show offsets.length = (count.toNat + 1) * 4
      omega
    · show offsets.length ≤ usizeMax
      omega
    · rw [w₀, w₁, w₂, w₃, w₄, w₅, w₆, w₇, w₈, w₉, w₁₀, w₁₁, w₁₂, w₁₃, w₁₄, w₁₅, w₁₆, u₀, u₁, u₂,
        u₃, u₄, u₅, u₆, u₇, u₈, u₉, u₁₀, ← u₁₁, u₁₂, u₁₃, u₁₄, ← u₁₅, u₁₆, u₁₇, List.append_nil]
      rfl
  · rintro ⟨hx, rfl⟩
    have hone : (1 : U32).toNat = 1 := rfl
    have hcount : (BitVec.ofNat 32 (x.messageCount.toNat + 1)).toNat =
        x.messageCount.toNat + 1 := toNat_bodyLen hx.count_lt
    refine ⟨(), _, _, rfl, ⟨x.context, _, _, rfl, ⟨x.destination, _, _, rfl,
      ⟨x.selectedCodeId, _, _, rfl, ⟨x.requiredStateOutputMode, _, _, rfl,
      ⟨x.extra, _, _, ⟨hx.extra_ok, rfl⟩, ⟨x.state, _, _, ⟨hx.state_length, rfl⟩,
      ⟨x.messageCount, _, _, rfl,
      ⟨BitVec.ofNat 32 (x.messageCount.toNat + 1), [], _, ⟨?_, rfl⟩,
      ⟨x.messageCount.toNat + 1, [], _, ⟨?_, rfl⟩,
      ⟨x.offsets.length, [], _, ⟨?_, rfl⟩, ⟨x.offsets, _, _, ⟨rfl, rfl⟩,
      ⟨0, [], _, ⟨hx.first_offset, rfl⟩, ⟨(), [], _, ⟨not_not.mpr rfl, rfl⟩,
      ⟨x.messageBytes.length, [], _, ⟨hx.last_offset, rfl⟩, ⟨x.messageBytes, _, _, ⟨rfl, rfl⟩,
      ⟨x.internalEventResults, _, [], ⟨hx.internalEventResults_length, rfl⟩, ⟨rfl, rfl⟩,
      (List.append_nil _).symm⟩, rfl⟩, rfl⟩, rfl⟩, rfl⟩, rfl⟩, rfl⟩, rfl⟩, rfl⟩, rfl⟩, rfl⟩, rfl⟩,
      rfl⟩, rfl⟩, rfl⟩, rfl⟩, rfl⟩
    · rw [okOr_ok_iff, wordCheckedAdd_eq_some, hcount, hone]
    · rw [okOr_ok_iff, usizeTryFrom_eq, hcount]
    · rw [okOr_ok_iff, checkedMul_eq_some]
      exact ⟨hx.offsets_length ▸ hx.offsets_le, hx.offsets_length.symm⟩

/-- The batch carries a list of messages: acceptable messages end to end, with their count and the
table of their offsets. -/
structure BatchInput.Carries (x : BatchInput) (ms : List CanonicalMessage) : Prop where
  messages_ok : ∀ m ∈ ms, BatchMessage x.destination m
  count_eq : x.messageCount.toNat = ms.length
  offsets_eq : x.offsets =
    (offsetTable (ms.map CanonicalMessage.canonicalBytes)).flatMap (leBytes 4)
  messageBytes_eq : x.messageBytes = (ms.map CanonicalMessage.canonicalBytes).flatten

omit [Target] in
/-- The words of a table are its numbers, four bytes each. -/
theorem flatMap_toLe (words : List U32) :
    words.flatMap toLe = (words.map BitVec.toNat).flatMap (leBytes 4) := by
  rw [List.flatMap_map]
  rfl

omit [Target] in
/-- The words of an offset table whose region has a `u32` length. -/
theorem words_offsetTable {blocks : List Bytes} (h : blocks.flatten.length < 2 ^ 32) :
    ∃ words : List U32, words.map BitVec.toNat = offsetTable blocks ∧
      words.flatMap toLe = (offsetTable blocks).flatMap (leBytes 4) := by
  have hwords : ((offsetTable blocks).map (BitVec.ofNat 32)).map BitVec.toNat =
      offsetTable blocks := by
    have hentry : ∀ e ∈ offsetTable blocks, (BitVec.toNat ∘ BitVec.ofNat 32) e = id e := by
      intro e he
      exact toNat_bodyLen (Nat.lt_of_le_of_lt (le_of_mem_offsetTable he) h)
    rw [List.map_map, List.map_congr_left hentry, List.map_id]
  exact ⟨_, hwords, by rw [flatMap_toLe, hwords]⟩

/-- An entry of an offset table is the length of the blocks before it. -/
theorem readOffset_offsetTable {blocks : List Bytes} (htotal : blocks.flatten.length < 2 ^ 32)
    (hmax : ((offsetTable blocks).flatMap (leBytes 4)).length ≤ usizeMax) (index : U32)
    (hindex : index.toNat ≤ blocks.length) :
    readOffset ((offsetTable blocks).flatMap (leBytes 4)) index =
      .ok (blocks.take index.toNat).flatten.length := by
  obtain ⟨words, htable, hflat⟩ := words_offsetTable htotal
  have hentry := congrArg (·[index.toNat]?) htable
  simp only [List.getElem?_map] at hentry
  rw [getElem?_offsetTable hindex] at hentry
  obtain ⟨word, hword, hlen⟩ := Option.map_eq_some_iff.mp hentry
  rw [← hflat] at hmax ⊢
  rw [readOffset_eq hmax hword, hlen]

omit [Target] in
/-- The bytes of an offset table: four for each entry. -/
theorem length_offsetTable_flatMap (blocks : List Bytes) :
    ((offsetTable blocks).flatMap (leBytes 4)).length = (blocks.length + 1) * 4 := by
  rw [List.length_flatMap, List.map_congr_left (fun e _ => length_leBytes 4 e), List.map_const',
    List.sum_replicate_nat, length_offsetTable]

/-- The region of a framed batch has a `u32` length. -/
theorem BatchInput.Framed.length_messageBytes_lt {x : BatchInput} (h : x.Framed) :
    x.messageBytes.length < 2 ^ 32 := by
  have hlast := h.last_offset
  rw [readOffset, usizeTryFrom_eq, okOr_some, ok_bind] at hlast
  simp only [bind_ok_iff, toUsize_ok_iff] at hlast
  obtain ⟨_, -, word, -, hword⟩ := hlast
  rw [← hword]
  exact word.isLt

/-- The loop on the whole region of a framed batch. -/
theorem checkMessages_framed_iff {x : BatchInput} (hx : x.Framed)
    (hmax : x.messageBytes.length ≤ usizeMax) :
    checkMessages x.offsets x.messageBytes x.destination x.messageCount.toNat 0 0 = .ok () ↔
      ∃ ms, x.Carries ms := by
  have hregion := hx.length_messageBytes_lt
  have hcount := hx.count_lt
  have hle := hx.offsets_le
  have hloop : ∀ words : List U32, words.flatMap toLe = x.offsets →
      words.length = x.messageCount.toNat + 1 →
      (checkMessages x.offsets x.messageBytes x.destination x.messageCount.toNat 0 0 = .ok () ↔
        ∃ ms : List CanonicalMessage, ms.length = x.messageCount.toNat ∧
          (∀ m ∈ ms, BatchMessage x.destination m) ∧
          (words.drop 1).map BitVec.toNat =
            blockEnds 0 (ms.map CanonicalMessage.canonicalBytes) ∧
          (ms.map CanonicalMessage.canonicalBytes).flatten <+: x.messageBytes) := by
    intro words hoffsets hwords
    rw [← hoffsets] at hle ⊢
    exact checkMessages_ok_iff hle hmax (by omega) (Nat.zero_le _)
      (by rw [hwords]; show 0 + _ + 1 = _; omega)
  constructor
  · intro h
    obtain ⟨words, hwords, hoffsets⟩ :=
      word32.exists_flatMap x.offsets hx.offsets_length
    replace hoffsets : words.flatMap toLe = x.offsets := hoffsets
    obtain ⟨ms, hlen, hms, hends, hpre⟩ := (hloop words hoffsets hwords).mp h
    have htable : words.map BitVec.toNat =
        offsetTable (ms.map CanonicalMessage.canonicalBytes) := by
      obtain ⟨word, words, rfl⟩ := List.exists_cons_of_length_eq_add_one hwords
      have hfirst := hx.first_offset
      have hword : (word :: words)[(0 : U32).toNat]? = some word := rfl
      rw [← hoffsets, readOffset_eq (hoffsets ▸ hle) hword] at hfirst
      rw [List.map_cons, Except.ok.inj hfirst]
      exact congrArg (0 :: ·) hends
    have hlast : x.messageBytes.length =
        (ms.map CanonicalMessage.canonicalBytes).flatten.length := by
      obtain ⟨word, hword⟩ : ∃ word, words[x.messageCount.toNat]? = some word :=
        ⟨_, List.getElem?_eq_getElem (by omega)⟩
      have hlast := hx.last_offset
      rw [← hoffsets, readOffset_eq (hoffsets ▸ hle) hword] at hlast
      have hentry := congrArg (·[x.messageCount.toNat]?) htable
      simp only [List.getElem?_map, hword, Option.map_some] at hentry
      rw [getElem?_offsetTable (by rw [List.length_map, hlen]), ← hlen,
        List.take_of_length_le (by rw [List.length_map]), Option.some.injEq] at hentry
      rw [← Except.ok.inj hlast, hentry]
    refine ⟨ms, hms, hlen.symm, ?_, (hpre.eq_of_length hlast.symm).symm⟩
    rw [← hoffsets, flatMap_toLe, htable]
  · rintro ⟨ms, hms⟩
    rw [hms.messageBytes_eq] at hregion
    obtain ⟨words, htable, hflat⟩ := words_offsetTable hregion
    have hwords : words.length = x.messageCount.toNat + 1 := by
      rw [← List.length_map (f := BitVec.toNat), htable, length_offsetTable, List.length_map,
        hms.count_eq]
    refine (hloop words (hflat.trans hms.offsets_eq.symm) hwords).mpr
      ⟨ms, hms.count_eq.symm, hms.messages_ok, ?_, ?_⟩
    · rw [List.map_drop]
      exact congrArg (List.drop 1) htable
    · show _ <+: x.messageBytes
      exact hms.messageBytes_eq ▸ List.prefix_rfl

/-- A byte string is decoded to a batch exactly when it is the frame of that batch and the batch
carries a list of messages. -/
theorem decodeBatchInput_ok_iff (b : Slice) (x : BatchInput) :
    decodeBatchInput b.bytes = .ok x ↔
      x.toBytes = b.bytes ∧ x.Framed ∧ ∃ ms, x.Carries ms := by
  have hread := fun x => reads_run_finish reads_readBatchInput (sound_new b.length_le) x
  simp only [rest_new] at hread
  have hmessages : x.toBytes = b.bytes → x.messageBytes.length ≤ usizeMax := by
    intro h
    have hlen := congrArg List.length h
    have hmax := b.length_le
    simp only [BatchInput.toBytes, List.length_append] at hlen
    omega
  simp only [decodeBatchInput, bind_ok_iff, pure_ok_iff]
  constructor
  · rintro ⟨⟨x, reader⟩, hrun, ⟨⟩, hfin, ⟨⟩, hcheck, rfl⟩
    obtain ⟨hx, hbytes⟩ := (hread x).mp ⟨reader, hrun, hfin⟩
    exact ⟨hbytes.symm, hx, (checkMessages_framed_iff hx (hmessages hbytes.symm)).mp hcheck⟩
  · rintro ⟨hbytes, hx, hms⟩
    obtain ⟨reader, hrun, hfin⟩ := (hread x).mpr ⟨hx, hbytes.symm⟩
    exact ⟨(x, reader), hrun, (), hfin, (),
      (checkMessages_framed_iff hx (hmessages hbytes)).mpr hms, rfl⟩

/-- The iterator over a batch yields the messages that the batch carries. -/
theorem BatchInput.Carries.exhausts {x : BatchInput} (hx : x.Framed) {ms : List CanonicalMessage}
    (hms : x.Carries ms) : Exhausts BatchMessageIter.next x.messages (ms.map Except.ok) := by
  have hregion := hx.length_messageBytes_lt
  rw [hms.messageBytes_eq] at hregion
  obtain ⟨words, htable, hflat⟩ := words_offsetTable hregion
  have hoffsets : x.offsets = words.flatMap toLe := hms.offsets_eq.trans hflat.symm
  have hle := hx.offsets_le
  rw [BatchInput.messages, hoffsets]
  rw [hoffsets] at hle
  apply exhausts_messages hle (p := 0)
  · rw [hms.count_eq]
    exact Nat.zero_add _
  · exact Nat.zero_le _
  · intro m hm
    exact (hms.messages_ok m hm).decodes
  · exact htable
  · rw [hms.messageBytes_eq]
    exact List.prefix_rfl

/-- An entry of the table of a batch is the length of the messages before it. -/
theorem BatchInput.Carries.readOffset_eq {x : BatchInput} (hx : x.Framed)
    {ms : List CanonicalMessage} (hms : x.Carries ms) {i : ℕ} (hi : i ≤ ms.length) :
    readOffset x.offsets (BitVec.ofNat 32 i) =
      .ok ((ms.map CanonicalMessage.canonicalBytes).take i).flatten.length := by
  have hregion := hx.length_messageBytes_lt
  have hle := hx.offsets_le
  have hcount := hx.count_lt
  have hcount_eq := hms.count_eq
  have hi' : (BitVec.ofNat 32 i).toNat = i := toNat_bodyLen (by omega)
  rw [hms.messageBytes_eq] at hregion
  rw [hms.offsets_eq] at hle ⊢
  rw [readOffset_offsetTable hregion hle _ (by rw [List.length_map, hi']; exact hi), hi']

/-- A message of a batch is not empty. -/
theorem BatchInput.Carries.length_pos {x : BatchInput} {ms : List CanonicalMessage}
    (hms : x.Carries ms) {m : CanonicalMessage} (hm : m ∈ ms) : 0 < m.canonicalBytes.length := by
  have hdecodes := (hms.messages_ok m hm).decodes
  cases hbytes : m.canonicalBytes with
  | nil => rw [hbytes] at hdecodes; cases hdecodes
  | cons tag tail => exact Nat.succ_pos _

/-- The fields of a batch around a list of messages, with the offsets added up. -/
def BatchInput.withMessages (x : BatchInput) (ms : List CanonicalMessage) : BatchInput :=
  { x with
    offsets := (offsetTable (ms.map CanonicalMessage.canonicalBytes)).flatMap (leBytes 4)
    messageBytes := (ms.map CanonicalMessage.canonicalBytes).flatten
    messageCount := BitVec.ofNat 32 ms.length }

omit [Target] in
/-- Messages that each take at least 176 bytes are fewer than their bytes allow. -/
theorem length_mul_le_length_flatten {ms : List CanonicalMessage}
    (h : ∀ m ∈ ms, m.canonicalBytes = m.serialize) :
    ms.length * 176 ≤ (ms.map CanonicalMessage.canonicalBytes).flatten.length := by
  induction ms with
  | nil => exact Nat.zero_le _
  | cons m ms ih =>
      have htail := ih fun m' hm' => h m' (List.mem_cons_of_mem _ hm')
      have hhead : 176 ≤ m.canonicalBytes.length := by
        rw [h m List.mem_cons_self]
        cases m with
        | internal message => exact message.length_serialize_ge
        | external message => exact Nat.le_trans (by decide) message.length_serialize_ge
      rw [List.map_cons, List.flatten_cons, List.length_append, List.length_cons, Nat.succ_mul]
      omega

/-- The frame built around a list of acceptable messages is framed and carries them. -/
theorem BatchInput.carries_withMessages {x : BatchInput} (hextra : x.extra.WellFormed)
    (hstate : x.state.length < 2 ^ 32) (hresults : x.internalEventResults.length < 2 ^ 32)
    {ms : List CanonicalMessage}
    (hms : ∀ m ∈ ms, m.WellFormed ∧ m.canonicalBytes = m.serialize ∧
      m.destination = x.destination ∧ ¬ m.isCallback ∧ ¬ m.hasCallbackRequest)
    (htotal : (ms.map CanonicalMessage.canonicalBytes).flatten.length < 2 ^ 32) :
    (x.withMessages ms).Framed ∧ (x.withMessages ms).Carries ms := by
  have hmax := Target.u32_le_usizeMax
  have hlen := length_mul_le_length_flatten fun m hm => (hms m hm).2.1
  have hcount : (x.withMessages ms).messageCount.toNat = ms.length := toNat_bodyLen (by omega)
  have hbytes : (x.withMessages ms).offsets.length = (ms.length + 1) * 4 := by
    rw [BatchInput.withMessages, length_offsetTable_flatMap, List.length_map]
  have hentry := fun index => readOffset_offsetTable htotal (by
    rw [length_offsetTable_flatMap, List.length_map]
    omega) index
  refine ⟨⟨hextra, hstate, by omega, by rw [hbytes, hcount], by omega, hentry 0 (Nat.zero_le _),
    ?_, hresults⟩, ?_, hcount, rfl, rfl⟩
  · have hlast := hentry (x.withMessages ms).messageCount (by rw [List.length_map, hcount])
    rwa [hcount, List.take_of_length_le (by rw [List.length_map])] at hlast
  · intro m hm
    obtain ⟨hwf, hcan, hdest, hcb, hreq⟩ := hms m hm
    have hle : m.canonicalBytes.length ≤ usizeMax := by
      have hmem : m.canonicalBytes ∈ ms.map CanonicalMessage.canonicalBytes :=
        List.mem_map_of_mem hm
      have hsub := (List.sublist_flatten_of_mem hmem).length_le
      omega
    refine ⟨?_, hdest, hcb, hreq⟩
    exact (decodeCanonicalMessage_ok_iff ⟨_, hle⟩ m).mpr ⟨hcan.symm, rfl, hwf⟩

/-- **The validator of a batch and its iterator agree.** An accepted frame iterates to exactly
`messageCount` messages: message `i` is the slice between offsets `i` and `i + 1`, no slice is
empty, the slices make up the message region, every message is addressed to the batch and is
neither a callback nor a request for one, and `size_hint` is exact after any number of steps.
Conversely the frame built around such messages with their offsets added up is accepted and
iterates to them. -/
theorem batchInput_messages (b : Slice) :
    (∀ x, decodeBatchInput b.bytes = .ok x → ∃ ms : List CanonicalMessage,
      Exhausts BatchMessageIter.next x.messages (ms.map Except.ok) ∧
      ms.length = x.messageCount.toNat ∧
      (∀ i m, ms[i]? = some m → ∃ start stop,
        readOffset x.offsets (BitVec.ofNat 32 i) = .ok start ∧
        readOffset x.offsets (BitVec.ofNat 32 (i + 1)) = .ok stop ∧
        start < stop ∧ m.canonicalBytes = x.messageBytes.extract start stop) ∧
      (ms.map CanonicalMessage.canonicalBytes).flatten = x.messageBytes ∧
      (∀ m ∈ ms, m.destination = x.destination ∧ ¬ m.isCallback ∧ ¬ m.hasCallbackRequest) ∧
      (∀ items it, Yields BatchMessageIter.next x.messages items it → ∃ rest,
        Exhausts BatchMessageIter.next it rest ∧ items ++ rest = ms.map Except.ok ∧
        it.sizeHint = (rest.length, some rest.length))) ∧
    (∀ (x : BatchInput) (ms : List CanonicalMessage), x.extra.WellFormed →
      x.state.length < 2 ^ 32 → x.internalEventResults.length < 2 ^ 32 →
      (∀ m ∈ ms, m.WellFormed ∧ m.canonicalBytes = m.serialize ∧
        m.destination = x.destination ∧ ¬ m.isCallback ∧ ¬ m.hasCallbackRequest) →
      (ms.map CanonicalMessage.canonicalBytes).flatten.length < 2 ^ 32 →
      (x.withMessages ms).toBytes = b.bytes →
      decodeBatchInput b.bytes = .ok (x.withMessages ms) ∧
      Exhausts BatchMessageIter.next (x.withMessages ms).messages (ms.map Except.ok)) := by
  constructor
  · intro x h
    obtain ⟨-, hx, ms, hms⟩ := (decodeBatchInput_ok_iff b x).mp h
    have hrun := hms.exhausts hx
    refine ⟨ms, hrun, hms.count_eq.symm, ?_, hms.messageBytes_eq.symm, ?_, ?_⟩
    · intro i m hi
      have hlt : i < ms.length := (List.getElem?_eq_some_iff.mp hi).1
      have hi' : (ms.map CanonicalMessage.canonicalBytes)[i]? = some m.canonicalBytes := by
        rw [List.getElem?_map, hi, Option.map_some]
      have hpos := hms.length_pos (List.mem_of_getElem? hi)
      refine ⟨_, _, hms.readOffset_eq hx (Nat.le_of_lt hlt), hms.readOffset_eq hx hlt, ?_, ?_⟩
      · rw [List.take_add_one, hi', Option.toList_some, List.flatten_append, List.length_append,
          List.flatten_singleton]
        omega
      · rw [hms.messageBytes_eq, extract_flatten hi']
    · intro m hm
      have hok := hms.messages_ok m hm
      exact ⟨hok.destination_eq, hok.not_callback, hok.not_request⟩
    · intro items it hyields
      obtain ⟨rest, hrest, hexhausts⟩ := hrun.of_yields hyields
      refine ⟨rest, hexhausts, hrest.symm, ?_⟩
      have hlen := congrArg List.length hrest
      rw [List.length_map, List.length_append] at hlen
      have hfirst : x.messages.sizeHint.1 = ms.length := hms.count_eq
      rw [sizeHint_of_yields hyields, hfirst, hlen, Nat.add_sub_cancel_left]
  · intro x ms hextra hstate hresults hms htotal hbytes
    obtain ⟨hframed, hcarries⟩ := BatchInput.carries_withMessages hextra hstate hresults hms htotal
    exact ⟨(decodeBatchInput_ok_iff b _).mpr ⟨hbytes, hframed, ms, hcarries⟩,
      hcarries.exhausts hframed⟩

end

end AvmSdk.Sdk
