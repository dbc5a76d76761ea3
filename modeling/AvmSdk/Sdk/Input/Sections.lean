import AvmSdk.Sdk.Input.Message

/-!
# The sections of a message

What the packed sections of a message are, and that their readers accept exactly these.

* `CurrencyAmounts.WellFormed`, `InternalEventReadRequests.WellFormed`: a packed list holds the
  announced number of records, in strictly ascending order of key.
* `reads_readCurrencyAmountsWithCount`, `reads_readCurrencyAmounts`, `reads_readEventReads`,
  `reads_readCallbackHeader`, `reads_readCallbackHandler`: the languages of the section readers.
* `reads_readInternalSections`, `reads_readExternalSections`: everything after the header.
-/

namespace AvmSdk.Sdk

open Wire Wire.Cursor

/-! ## Packed records -/

/-- The bytes of an event read: account, then class. -/
def InternalEventReadRequest.toBytes (request : InternalEventReadRequest) : Bytes :=
  request.source.toBytes ++ toLe request.eventClass

/-- The format of an event read. -/
def InternalEventReadRequest.format : FixedWidth Byte InternalEventReadRequest :=
  (AccountAddress.format.prod word64).equiv
    { toFun := fun x => ⟨x.1, x.2⟩
      invFun := fun r => (r.source, r.eventClass)
      left_inv := fun _ => rfl
      right_inv := fun _ => rfl }

/-- The order of event reads is transitive: it is the lexicographic order of three orders. -/
instance : IsTrans EventReadKey EventReadKey.Lt := by
  constructor
  intro a b c hab hbc
  rcases hab with hab | ⟨hab, hab'⟩
  · rcases hbc with hbc | ⟨hbc, -⟩
    · exact Or.inl (List.lt_trans hab hbc)
    · exact Or.inl (hbc ▸ hab)
  · rcases hbc with hbc | ⟨hbc, hbc'⟩
    · exact Or.inl (hab ▸ hbc)
    · refine Or.inr ⟨hab.trans hbc, ?_⟩
      rcases hab' with hab' | ⟨hab', hlt⟩
      · rcases hbc' with hbc' | ⟨hbc', -⟩
        · exact Or.inl (List.lt_trans hab' hbc')
        · exact Or.inl (hbc' ▸ hab')
      · rcases hbc' with hbc' | ⟨hbc', hlt'⟩
        · exact Or.inl (hab' ▸ hbc')
        · exact Or.inr ⟨hab'.trans hbc', BitVec.lt_trans hlt hlt'⟩

instance isTrans_bitVec_lt {w : ℕ} : IsTrans (BitVec w) (· < ·) := ⟨fun _ _ _ => BitVec.lt_trans⟩

section

variable [Target]

/-- `CurrencyAmountIter::next` yields the entry that stands at its position. -/
theorem CurrencyAmountIter.next_of_entry {bs : Bytes} (hbs : bs.length ≤ usizeMax) {i : ℕ}
    {a : CurrencyAmount} (h : a.toBytes <+: bs.drop i) :
    CurrencyAmountIter.next ⟨bs, i⟩ = some (a, ⟨bs, i + 20⟩) := by
  obtain ⟨t, ht⟩ := h
  obtain ⟨hle, hget⟩ := getRange_of_drop_eq ht (by simp)
  rw [CurrencyAmount.length_toBytes] at hle hget
  have hid : getRange a.toBytes 0 4 = some (toLe a.currencyId) := by
    have h := getRange_append [] (toLe a.currencyId) (toLe a.amount)
    rwa [length_toLe] at h
  have hamount : getRange a.toBytes 4 20 = some (toLe a.amount) := by
    have h := getRange_append (toLe a.currencyId) (toLe a.amount) []
    rwa [length_toLe, length_toLe, List.append_nil] at h
  have hstop : checkedAdd i extraCurrencyLen = some (i + 20) :=
    checkedAdd_eq_some.mpr ⟨hle.trans hbs, rfl⟩
  have hid' : tryIntoArray 4 (toLe a.currencyId) = some ⟨toLe a.currencyId, by simp⟩ :=
    tryIntoArray_eq_some.mpr rfl
  have hamount' : tryIntoArray 16 (toLe a.amount) = some ⟨toLe a.amount, by simp⟩ :=
    tryIntoArray_eq_some.mpr rfl
  simp only [next, hstop, hget, hid, hid', hamount, hamount', Option.bind_eq_bind,
    Option.bind_some]
  rw [ofLe_toLe (by norm_num), ofLe_toLe (by norm_num)]
  rfl

/-- `InternalEventReadRequestIter::next` yields the request that stands at its position. -/
theorem InternalEventReadRequestIter.next_of_request {bs : Bytes} (hbs : bs.length ≤ usizeMax)
    {i : ℕ} {a : InternalEventReadRequest} (h : a.toBytes <+: bs.drop i) :
    InternalEventReadRequestIter.next ⟨bs, i⟩ = some (a, ⟨bs, i + 72⟩) := by
  obtain ⟨t, ht⟩ := h
  have hlen : a.toBytes.length = 72 := by simp [InternalEventReadRequest.toBytes]
  obtain ⟨hle, hget⟩ := getRange_of_drop_eq ht (by omega)
  rw [hlen] at hle hget
  obtain ⟨⟨⟨dapp, hdapp⟩, ⟨account, haccount⟩⟩, eventClass⟩ := a
  have hbytes : InternalEventReadRequest.toBytes ⟨⟨⟨dapp, hdapp⟩, ⟨account, haccount⟩⟩, eventClass⟩
      = dapp ++ (account ++ toLe eventClass) := List.append_assoc ..
  rw [hbytes] at hget
  have h₁ : getRange (dapp ++ (account ++ toLe eventClass)) 0 32 = some dapp := by
    have h := getRange_append [] dapp (account ++ toLe eventClass)
    rwa [hdapp] at h
  have h₂ : getRange (dapp ++ (account ++ toLe eventClass)) 32 64 = some account := by
    have h := getRange_append dapp account (toLe eventClass)
    rwa [hdapp, haccount] at h
  have h₃ : getRange (dapp ++ (account ++ toLe eventClass)) 64 72 = some (toLe eventClass) := by
    have h := getRange_append (dapp ++ account) (toLe eventClass) []
    rwa [List.length_append, hdapp, haccount, length_toLe, List.append_nil,
      List.append_assoc] at h
  have hstop : checkedAdd i internalEventReadLen = some (i + 72) :=
    checkedAdd_eq_some.mpr ⟨hle.trans hbs, rfl⟩
  have h₁' : tryIntoArray 32 dapp = some ⟨dapp, hdapp⟩ := tryIntoArray_eq_some.mpr rfl
  have h₂' : tryIntoArray 32 account = some ⟨account, haccount⟩ := tryIntoArray_eq_some.mpr rfl
  have h₃' : tryIntoArray 8 (toLe eventClass) = some ⟨toLe eventClass, by simp⟩ :=
    tryIntoArray_eq_some.mpr rfl
  simp only [next, hstop, hget, h₁, h₁', h₂, h₂', h₃, h₃', Option.bind_eq_bind, Option.bind_some]
  rw [ofLe_toLe (by norm_num)]
  rfl

/-- `next` stops when its position is at the end: there is no record to take. -/
theorem next_eq_none {β : Type} {bs : Bytes} {i n : ℕ} (hi : bs.length ≤ i) (hn : 0 < n)
    (k : ℕ → Bytes → Option β) :
    ((checkedAdd i n).bind fun stop => (getRange bs i stop).bind (k stop)) = none := by
  cases hstop : checkedAdd i n with
  | none => rfl
  | some stop =>
      obtain ⟨-, rfl⟩ := checkedAdd_eq_some.mp hstop
      have hget : getRange bs i (i + n) = none := by
        rw [getRange, if_neg (by omega)]
      rw [Option.bind_some, hget, Option.bind_none]

/-- Entries packed in a byte string are the items of the list. -/
theorem CurrencyAmounts.items_of_entries {bs : Bytes} (hbs : bs.length ≤ usizeMax) {count : U16}
    {entries : List CurrencyAmount} (h : bs = entries.flatMap CurrencyAmount.toBytes) :
    CurrencyAmounts.items ⟨bs, count⟩ = entries := by
  have hlen : bs.length = entries.length * 20 := by
    rw [h]
    exact CurrencyAmount.format.length_flatMap_enc entries
  have hrun : Exhausts CurrencyAmountIter.next ⟨bs, 0⟩ entries := by
    apply exhausts_records CurrencyAmount.format (fun i => (⟨bs, i⟩ : CurrencyAmountIter))
    · intro i a ha
      exact CurrencyAmountIter.next_of_entry hbs ha
    · intro i hi
      exact next_eq_none hi (by decide) _
    · exact h
  exact drain_of_exhausts hrun (by show _ < bs.length + 1; omega)

/-- Requests packed after the count and the reserved bytes are the items of the section. -/
theorem InternalEventReadRequests.items_of_requests {bs front : Bytes} (hfront : front.length = 4)
    (hbs : bs.length ≤ usizeMax) {count : U16} {requests : List InternalEventReadRequest}
    (h : bs = requests.flatMap InternalEventReadRequest.toBytes) :
    InternalEventReadRequests.items ⟨front ++ bs, count⟩ = requests := by
  have hlen : bs.length = requests.length * 72 := by
    rw [h]
    exact InternalEventReadRequest.format.length_flatMap_enc requests
  have hiter : InternalEventReadRequests.iter ⟨front ++ bs, count⟩ = ⟨bs, 0⟩ := by
    have hget := getRange_append front bs []
    rw [List.append_nil, hfront] at hget
    show InternalEventReadRequestIter.mk ((getRange (front ++ bs) 4 (front ++ bs).length).getD []) 0
      = ⟨bs, 0⟩
    rw [List.length_append, hfront, hget, Option.getD_some]
  have hrun : Exhausts InternalEventReadRequestIter.next ⟨bs, 0⟩ requests := by
    apply exhausts_records InternalEventReadRequest.format
      (fun i => (⟨bs, i⟩ : InternalEventReadRequestIter))
    · intro i a ha
      exact InternalEventReadRequestIter.next_of_request hbs ha
    · intro i hi
      exact next_eq_none hi (by decide) _
    · exact h
  rw [items, hiter]
  exact drain_of_exhausts hrun (by show _ < bs.length + 1; omega)

/-! ## Well-formed lists -/

/-- A currency list holds `count` packed entries, with strictly ascending ids. -/
structure CurrencyAmounts.WellFormed (amounts : CurrencyAmounts) : Prop where
  items_length : amounts.items.length = amounts.count.toNat
  bytes_eq : amounts.bytes = amounts.items.flatMap CurrencyAmount.toBytes
  ascending : (amounts.items.map CurrencyAmount.currencyId).Pairwise (· < ·)

/-- An event-read section is its count, not zero, two reserved zero bytes, and `count` packed
requests with strictly ascending keys (application, account, class). -/
structure InternalEventReadRequests.WellFormed (requests : InternalEventReadRequests) :
    Prop where
  count_ne_zero : requests.count ≠ 0
  items_length : requests.items.length = requests.count.toNat
  canonicalBytes_eq : requests.canonicalBytes =
    toLe requests.count ++ (zeros 2).val ++ requests.items.flatMap InternalEventReadRequest.toBytes
  ascending : (requests.items.map InternalEventReadRequest.key).Pairwise EventReadKey.Lt

/-- A byte string of the announced length always splits into entries; only their order is a
condition. -/
theorem CurrencyAmounts.wellFormed_iff {amounts : CurrencyAmounts} :
    amounts.WellFormed ↔ amounts.bytes.length = amounts.count.toNat * 20 ∧
      (amounts.items.map CurrencyAmount.currencyId).Pairwise (· < ·) := by
  obtain ⟨bs, count⟩ := amounts
  have hmax := Target.u32_le_usizeMax
  have hcount := count.isLt
  constructor
  · intro h
    refine ⟨?_, h.ascending⟩
    rw [← h.items_length]
    conv_lhs => rw [h.bytes_eq]
    exact CurrencyAmount.format.length_flatMap_enc _
  · intro ⟨hlen, hasc⟩
    obtain ⟨entries, hentries, hflat⟩ := CurrencyAmount.format.exists_flatMap bs hlen
    have hbs : bs.length = count.toNat * 20 := hlen
    have hitems : CurrencyAmounts.items ⟨bs, count⟩ = entries :=
      CurrencyAmounts.items_of_entries (by omega) hflat.symm
    exact ⟨by rw [hitems, hentries], by rw [hitems]; exact hflat.symm, hasc⟩

/-! ## The languages of the section readers -/

/-- A recorded reader also returns the word it consumed. -/
theorem reads_recorded {α : Type} {p : ReadM α} {R : α → Bytes → Prop} (hp : Reads p R) :
    Reads (Reader.recorded p) (fun x w => R x.1 w ∧ x.2 = w) := by
  rintro r hr ⟨a, bytes⟩ r'
  have hrun : Reader.recorded p r = .ok ((a, bytes), r') ↔
      p r = .ok (a, r') ∧ getRange r'.bytes r.position r'.position = some bytes := by
    have heq : Reader.recorded p r = (p r >>= fun x =>
        okOr (getRange x.2.bytes r.position x.2.position) DecodeError.invalidLength >>=
          fun b => Except.ok ((x.1, b), x.2)) := by
      show (p r >>= _) = _
      congr 1
      funext x
      show (okOr _ _ >>= _) >>= _ = _
      cases getRange x.2.bytes r.position x.2.position <;> rfl
    rw [heq]
    simp only [bind_ok_iff, okOr_ok_iff, Except.ok.injEq, Prod.mk.injEq]
    constructor
    · rintro ⟨x, hx, b, hb, ⟨rfl, rfl⟩, rfl⟩
      exact ⟨hx, hb⟩
    · rintro ⟨hx, hb⟩
      exact ⟨_, hx, _, hb, ⟨rfl, rfl⟩, rfl⟩
  have hword : ∀ w : Bytes, w <+: rest r →
      getRange r.bytes r.position (r.position + w.length) = some w := by
    rintro w ⟨t, ht⟩
    rcases Nat.eq_zero_or_pos w.length with hw | hw
    · rw [List.eq_nil_of_length_eq_zero hw, getRange_eq_some]
      have hpos : r.position ≤ r.bytes.length := hr.1
      exact ⟨⟨le_rfl, hpos⟩, by simp [List.extract_eq_take_drop]⟩
    · exact (getRange_of_drop_eq ht hw).2
  rw [hrun, hp r hr a r']
  constructor
  · rintro ⟨⟨w, hw, hpre, rfl⟩, hget⟩
    have hbytes : some w = some bytes := (hword w hpre).symm.trans hget
    exact ⟨w, ⟨hw, (Option.some.inj hbytes).symm⟩, hpre, rfl⟩
  · rintro ⟨w, ⟨hw, rfl⟩, hpre, rfl⟩
    exact ⟨⟨bytes, hw, hpre, rfl⟩, hword bytes hpre⟩

/-- A list of currencies is read. -/
theorem reads_readCurrencyAmountsWithCount (count : U16) :
    Reads (readCurrencyAmountsWithCount count)
      (fun c w => c.count = count ∧ c.WellFormed ∧ w = c.bytes) := by
  have hmax := Target.u32_le_usizeMax
  have hcount := count.isLt
  refine ((Reads.lift _).bind fun length => (reads_take length).bind fun bytes =>
    (Reads.lift _).bind fun _ => Reads.pure _).congr fun c w => ?_
  constructor
  · rintro ⟨length, u, v, ⟨hlength, rfl⟩, ⟨bytes, u₁, v₁, ⟨rfl, hlen⟩, ⟨_, u₂, v₂, ⟨hasc, rfl⟩,
      ⟨rfl, rfl⟩, rfl⟩, rfl⟩, rfl⟩
    rw [okOr_ok_iff, checkedMul_eq_some] at hlength
    rw [checkAscending_none_ok_iff] at hasc
    refine ⟨rfl, CurrencyAmounts.wellFormed_iff.mpr ⟨?_, hasc⟩, ?_⟩
    · rw [hlen, ← hlength.2]
      rfl
    · simp
  · rintro ⟨rfl, hc, rfl⟩
    obtain ⟨hlen, hasc⟩ := CurrencyAmounts.wellFormed_iff.mp hc
    refine ⟨c.bytes.length, [], c.bytes, ⟨?_, rfl⟩, ⟨c.bytes, c.bytes, [], ⟨rfl, rfl⟩,
      ⟨(), [], [], ⟨?_, rfl⟩, ⟨rfl, rfl⟩, rfl⟩, (List.append_nil _).symm⟩, rfl⟩
    · rw [okOr_ok_iff, checkedMul_eq_some, extraCurrencyLen, hlen]
      omega
    · rw [checkAscending_none_ok_iff]
      exact hasc

/-- A counted currency list on the wire. -/
theorem reads_readCurrencyAmounts :
    Reads readCurrencyAmounts (fun c w => c.WellFormed ∧ w = toLe c.count ++ c.bytes) := by
  refine (reads_u16.bind fun count => reads_readCurrencyAmountsWithCount count).congr fun c w => ?_
  constructor
  · rintro ⟨count, u, v, rfl, ⟨rfl, hc, rfl⟩, rfl⟩
    exact ⟨hc, rfl⟩
  · intro ⟨hc, hw⟩
    exact ⟨c.count, _, _, rfl, ⟨rfl, hc, rfl⟩, hw⟩

/-- The bytes of a callback header: hash, address, status. -/
def CallbackHeader.toBytes (callback : CallbackHeader) : Bytes :=
  callback.causeMsgHash.val ++ (callback.causeAddress.toBytes ++ toLe callback.statusCode)

/-- The header of a callback is read, -/
theorem reads_readCallbackHeader (destination : AccountAddress) :
    Reads (readCallbackHeader destination)
      (fun c w => (c.causeMsgHash ≠ zeros 32 ∧ ¬ isZeroAddress c.causeAddress ∧
        c.causeAddress = destination) ∧ w = c.toBytes) := by
  refine ((reads_fixed 32).bind fun hash => (reads_fixed 32).bind fun dapp =>
    (reads_fixed 32).bind fun account => reads_u32.bind fun status =>
      (Reads.failIf _ _).bind fun _ => Reads.pure _).congr fun c w => ?_
  constructor
  · rintro ⟨hash, u, v, rfl, ⟨dapp, u₁, v₁, rfl, ⟨account, u₂, v₂, rfl, ⟨status, u₃, v₃, rfl,
      ⟨_, u₄, v₄, ⟨hguard, rfl⟩, ⟨rfl, rfl⟩, rfl⟩, rfl⟩, rfl⟩, rfl⟩, rfl⟩
    rw [not_or, not_or, not_not] at hguard
    exact ⟨hguard, by simp [CallbackHeader.toBytes, AccountAddress.toBytes]⟩
  · rintro ⟨⟨hhash, hzero, hdest⟩, rfl⟩
    refine ⟨c.causeMsgHash, _, _, rfl, ⟨c.causeAddress.dappId, _, _, rfl,
      ⟨c.causeAddress.accountId, _, _, rfl, ⟨c.statusCode, _, _, rfl,
        ⟨(), [], [], ⟨?_, rfl⟩, ⟨rfl, rfl⟩, rfl⟩, rfl⟩, rfl⟩, rfl⟩, ?_⟩
    · rintro (h | h | h)
      · exact hhash h
      · exact hzero h
      · exact h hdest
    · simp [CallbackHeader.toBytes, AccountAddress.toBytes]

/-- and so is a handler for one. -/
theorem reads_readCallbackHandler :
    Reads readCallbackHandler (fun methodId w => methodId ≠ 0 ∧ w = toLe methodId) := by
  refine (reads_u64.bind fun methodId => (Reads.failIf _ _).bind fun _ => Reads.pure _).congr
    fun methodId w => ?_
  constructor
  · rintro ⟨x, u, v, rfl, ⟨_, u₁, v₁, ⟨hne, rfl⟩, ⟨rfl, rfl⟩, rfl⟩, rfl⟩
    exact ⟨hne, by simp⟩
  · rintro ⟨hne, rfl⟩
    exact ⟨methodId, _, [], rfl, ⟨(), [], [], ⟨hne, rfl⟩, ⟨rfl, rfl⟩, rfl⟩,
      (List.append_nil _).symm⟩

/-- The front of an event-read section, up to its records: any records of the announced length. -/
theorem reads_eventReadFront :
    Reads (do
        let count ← Reader.u16
        failIf (count = 0) DecodeError.invalidValue
        let reserved ← Reader.take 2
        requireZero reserved
        let recordsLen ← okOr (checkedMul count.toNat internalEventReadLen)
          DecodeError.integerOverflow
        let _ ← Reader.take recordsLen
        pure count)
      (fun count w => count ≠ 0 ∧ ∃ records : Bytes, records.length = count.toNat * 72 ∧
        w = toLe count ++ (zeros 2).val ++ records) := by
  have hmax := Target.u32_le_usizeMax
  refine (reads_u16.bind fun count => (Reads.failIf _ _).bind fun _ => (reads_take 2).bind
    fun reserved => (reads_requireZero reserved).bind fun _ => (Reads.lift _).bind fun length =>
      (reads_take length).bind fun _ => Reads.pure count).congr fun count w => ?_
  constructor
  · rintro ⟨count, u, v, rfl, ⟨_, u₁, v₁, ⟨hne, rfl⟩, ⟨reserved, u₂, v₂, ⟨rfl, hreserved⟩,
      ⟨_, u₃, v₃, ⟨hzero, rfl⟩, ⟨length, u₄, v₄, ⟨hlength, rfl⟩, ⟨records, u₅, v₅, ⟨rfl, hlen⟩,
        ⟨rfl, rfl⟩, rfl⟩, rfl⟩, rfl⟩, rfl⟩, rfl⟩, rfl⟩
    rw [okOr_ok_iff, checkedMul_eq_some] at hlength
    refine ⟨hne, records, by rw [hlen, ← hlength.2]; rfl, ?_⟩
    rw [hzero, hreserved]
    simp [zeros]
  · rintro ⟨hne, records, hlen, rfl⟩
    have hcount := count.isLt
    refine ⟨count, _, _, rfl, ⟨(), [], _, ⟨hne, rfl⟩, ⟨(zeros 2).val, _, _, ⟨rfl, rfl⟩,
      ⟨(), [], _, ⟨rfl, rfl⟩, ⟨records.length, [], _, ⟨?_, rfl⟩, ⟨records, _, [], ⟨rfl, rfl⟩,
        ⟨rfl, rfl⟩, rfl⟩, rfl⟩, rfl⟩, rfl⟩, rfl⟩, ?_⟩
    · rw [okOr_ok_iff, checkedMul_eq_some, internalEventReadLen, hlen]
      omega
    · simp

/-- The requests for events are read. -/
theorem reads_readEventReads :
    Reads readEventReads (fun r w => r.WellFormed ∧ w = r.canonicalBytes) := by
  have hmax := Target.u32_le_usizeMax
  refine ((reads_recorded reads_eventReadFront).bind fun x => (Reads.lift _).bind fun _ =>
    Reads.pure _).congr fun r w => ?_
  constructor
  · rintro ⟨⟨count, bytes⟩, u, v, ⟨⟨hne, records, hlen, hw⟩, rfl⟩, ⟨_, u₁, v₁, ⟨hasc, rfl⟩,
      ⟨rfl, rfl⟩, rfl⟩, rfl⟩
    rw [checkAscending_none_ok_iff] at hasc
    have hcount := count.isLt
    obtain ⟨requests, hrequests, hflat⟩ :=
      InternalEventReadRequest.format.exists_flatMap records hlen
    have hitems : InternalEventReadRequests.items ⟨bytes, count⟩ = requests := by
      have hbytes : bytes = toLe count ++ (zeros 2).val ++ records := hw
      rw [hbytes]
      refine InternalEventReadRequests.items_of_requests (by simp [zeros]) ?_ hflat.symm
      have : records.length = count.toNat * 72 := hlen
      omega
    refine ⟨⟨hne, by rw [hitems, hrequests], ?_, hasc⟩, by simp⟩
    rw [hitems]
    show bytes = _ ++ requests.flatMap InternalEventReadRequest.format.enc
    rw [hflat]
    exact hw
  · rintro ⟨hr, rfl⟩
    refine ⟨(r.count, r.canonicalBytes), _, [], ⟨⟨hr.count_ne_zero, _, ?_, hr.canonicalBytes_eq⟩,
      rfl⟩, ⟨(), [], [], ⟨?_, rfl⟩, ⟨rfl, rfl⟩, rfl⟩, (List.append_nil _).symm⟩
    · rw [← hr.items_length]
      exact InternalEventReadRequest.format.length_flatMap_enc _
    · rw [checkAscending_none_ok_iff]
      exact hr.ascending

/-! ## Everything after the header -/

/-- The bytes of the sections of an internal message, in their order. -/
def InternalSections.toBytes (sections : InternalSections) : Bytes :=
  sections.callback.elim [] CallbackHeader.toBytes ++
    (sections.callbackHandlerMethodId.elim [] toLe ++
      (sections.eventReads.elim [] InternalEventReadRequests.canonicalBytes ++
        (sections.extra.bytes ++ sections.body)))

/-- What the reader of the sections checks, given the fields of the header it depends on. -/
structure InternalSections.Valid (flags : U8) (destination : AccountAddress) (extraCount : U16)
    (bodyLen : ℕ) (sections : InternalSections) : Prop where
  callback_isSome : sections.callback.isSome ↔ flags &&& internalFlagCallback ≠ 0
  callback_valid : ∀ c ∈ sections.callback, c.causeMsgHash ≠ zeros 32 ∧
    ¬ isZeroAddress c.causeAddress ∧ c.causeAddress = destination
  handler_isSome : sections.callbackHandlerMethodId.isSome ↔
    flags &&& internalFlagCallbackRequest ≠ 0
  handler_valid : ∀ methodId ∈ sections.callbackHandlerMethodId, methodId ≠ 0
  eventReads_isSome : sections.eventReads.isSome ↔ flags &&& internalFlagEventReads ≠ 0
  eventReads_valid : ∀ reads ∈ sections.eventReads, reads.WellFormed
  extra_count : sections.extra.count = extraCount
  extra_valid : sections.extra.WellFormed
  body_length : sections.body.length = bodyLen

/-- The sections of an internal message are read, -/
theorem reads_readInternalSections (flags : U8) (destination : AccountAddress) (extraCount : U16)
    (bodyLen : ℕ) :
    Reads (readInternalSections flags destination extraCount bodyLen)
      (fun s w => s.Valid flags destination extraCount bodyLen ∧ w = s.toBytes) := by
  refine (((reads_readCallbackHeader destination).optional _).bind fun callback =>
    (reads_readCallbackHandler.optional _).bind fun handler =>
      (reads_readEventReads.optional _).bind fun reads =>
        (reads_readCurrencyAmountsWithCount extraCount).bind fun extra =>
          (reads_take bodyLen).bind fun body => Reads.pure _).congr fun s w => ?_
  simp only [optionalWord_iff]
  constructor
  · rintro ⟨callback, u, v, ⟨hcb, hcbv, rfl⟩, ⟨handler, u₁, v₁, ⟨hh, hhv, rfl⟩,
      ⟨reads, u₂, v₂, ⟨hr, hrv, rfl⟩, ⟨extra, u₃, v₃, ⟨hcount, hev, rfl⟩,
        ⟨body, u₄, v₄, ⟨rfl, hbody⟩, ⟨rfl, rfl⟩, rfl⟩, rfl⟩, rfl⟩, rfl⟩, rfl⟩
    exact ⟨⟨hcb, hcbv, hh, hhv, hr, hrv, hcount, hev, hbody⟩, by simp [InternalSections.toBytes]⟩
  · rintro ⟨hs, rfl⟩
    exact ⟨s.callback, _, _, ⟨hs.callback_isSome, hs.callback_valid, rfl⟩,
      ⟨s.callbackHandlerMethodId, _, _, ⟨hs.handler_isSome, hs.handler_valid, rfl⟩,
        ⟨s.eventReads, _, _, ⟨hs.eventReads_isSome, hs.eventReads_valid, rfl⟩,
          ⟨s.extra, _, _, ⟨hs.extra_count, hs.extra_valid, rfl⟩,
            ⟨s.body, _, [], ⟨rfl, hs.body_length⟩, ⟨rfl, rfl⟩, rfl⟩,
            by rw [List.append_nil]⟩, rfl⟩, rfl⟩, rfl⟩

/-- and those of an external one. -/
theorem reads_readExternalSections (extraCount : U16) (bodyLen signatureLen : ℕ) :
    Reads (readExternalSections extraCount bodyLen signatureLen)
      (fun s w => (s.1.count = extraCount ∧ s.1.WellFormed ∧ s.2.1.length = bodyLen ∧
        s.2.2.length = signatureLen) ∧ w = s.1.bytes ++ (s.2.1 ++ s.2.2)) := by
  refine ((reads_readCurrencyAmountsWithCount extraCount).bind fun extra =>
    (reads_take bodyLen).bind fun body => (reads_take signatureLen).bind fun signature =>
      Reads.pure _).congr fun s w => ?_
  constructor
  · rintro ⟨extra, u, v, ⟨hcount, hev, rfl⟩, ⟨body, u₁, v₁, ⟨rfl, hbody⟩,
      ⟨signature, u₂, v₂, ⟨rfl, hsignature⟩, ⟨rfl, rfl⟩, rfl⟩, rfl⟩, rfl⟩
    exact ⟨⟨hcount, hev, hbody, hsignature⟩, by simp⟩
  · rintro ⟨⟨hcount, hev, hbody, hsignature⟩, rfl⟩
    exact ⟨s.1, _, _, ⟨hcount, hev, rfl⟩, ⟨s.2.1, _, _, ⟨rfl, hbody⟩,
      ⟨s.2.2, _, [], ⟨rfl, hsignature⟩, ⟨rfl, rfl⟩, rfl⟩, by rw [List.append_nil]⟩, rfl⟩

end

end AvmSdk.Sdk
