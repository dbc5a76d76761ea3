import AvmSdk.Books.Entries
import AvmSdk.Contracts.Common

/-!
# The ledger of the fungible token

A supply and up to eight holders, with their balances in a list.

* `Ledger.Valid`: different holders whose balances add up to the supply.
  `Ledger.Valid.decode_encode`: such a ledger is read back.
* `Ledger.transfer`, as the code computes it. `transfer_ok_iff`: a transfer succeeds exactly when
  the payer can pay and there is room for the payee.
* `Ledger.Moved`, `transfer_moved`: what a transfer does to the balances, also to oneself.
-/

namespace AvmSdk.Token

open Wire Sdk Contracts Books

/-- Source: `INITIAL_SUPPLY` -/
def initialSupply : U64 := 1000000

/-- Source: `HOLDER_SLOTS` -/
abbrev holderSlots : ℕ := 8

/-- Source: `HEADER_BYTES` -/
abbrev headerBytes : ℕ := 16

/-- Source: `SLOT_BYTES` -/
abbrev slotBytes : ℕ := 40

/-- Source: `STATE_BYTES` -/
abbrev stateBytes : ℕ := 336

/-- Source: `EXTERNAL_CALLER_REQUIRED` -/
def externalCallerRequired : U32 := 1300
/-- Source: `INVALID_TRANSFER_ARGS` -/
def invalidTransferArgs : U32 := 1301
/-- Source: `INVALID_TOKEN_STATE` -/
def invalidTokenState : U32 := 1302
/-- Source: `INSUFFICIENT_BALANCE` -/
def insufficientBalance : U32 := 1303
/-- Source: `HOLDER_CAPACITY_EXHAUSTED` -/
def holderCapacityExhausted : U32 := 1304
/-- Source: `INVALID_EVENT` -/
def invalidEvent : U32 := 1305

/-- Source: `Ledger` -/
structure Ledger where
  supply : U64
  holders : List (Bytes32 × U64)

namespace Ledger

/-- Source: `Ledger::decode`, `for slot in ..` -/
def decodeHolder (slot : Bytes) : Option (Bytes32 × U64) := do
  let key ← (getRange slot 0 32).bind (tryIntoArray 32)
  let balance ← (getRange slot 32 slot.length).bind (tryIntoArray 8)
  some (key, ofLe 64 balance.val)

/-- Source: `Ledger::decode` -/
def decode [Target] (state : Bytes) : Option Ledger := do
  guard (state.length = stateBytes)
  let supply ← (getRange state 0 8).bind (tryIntoArray 8)
  let count ← (getRange state 8 12).bind (tryIntoArray 4)
  let count ← (usizeTryFrom (ofLe 32 count.val)).filter (· ≤ holderSlots)
  let holders ← ((chunksExact slotBytes (state.drop headerBytes)).1.take count).mapM decodeHolder
  let total ← holders.foldlM (fun total holder => wordCheckedAdd total holder.2) (0 : U64)
  guard (total = ofLe 64 supply.val)
  some ⟨ofLe 64 supply.val, holders⟩

/-- A holder as it stands in its slot. -/
def holderFormat : FixedWidth Byte (Bytes32 × U64) := (FixedWidth.array 32 (by decide)).prod word64

/-- The fields one after the other, as they stand in the buffer of zeros that the source fills.
Source: `Ledger::encode` -/
def encode (self : Ledger) : Bytes :=
  [toLe self.supply, toLe ((tryFromUsize 32 self.holders.length).getD (BitVec.allOnes 32)),
    (zeros 4).val, (self.holders.take holderSlots).flatMap holderFormat.enc,
    (zeros ((holderSlots - self.holders.length) * slotBytes)).val].flatten

/-- The credit, with the holders after the debit.
Source: `Ledger::transfer`, `if let Some((_, balance)) = ..` -/
def credit (self : Ledger) (holders : List (Bytes32 × U64)) (payee : Bytes32) (amount : U64) :
    Except U32 Ledger :=
  match valueOf payee holders with
  | some balance => do
      let balance ← okOr (wordCheckedAdd balance amount) invalidTokenState
      pure { self with holders := setFirst payee balance holders }
  | none => do
      failIf (holders.length = holderSlots) holderCapacityExhausted
      pure { self with holders := holders ++ [(payee, amount)] }

/-- The parameters `payer` and `payee` are `from` and `to` of the source.
Source: `Ledger::transfer` -/
def transfer (self : Ledger) (payer payee : Bytes32) (amount : U64) : Except U32 Ledger := do
  let balance ← okOr (valueOf payer self.holders) insufficientBalance
  let balance ← okOr (wordCheckedSub balance amount) insufficientBalance
  self.credit (setFirst payer balance self.holders) payee amount

/-- A ledger in order: different holders, and balances that add up to the supply. -/
structure Valid (s : Ledger) : Prop where
  holders_le : s.holders.length ≤ holderSlots
  distinct : (s.holders.map Prod.fst).Nodup
  total_eq : total BitVec.toNat s.holders = s.supply.toNat

variable {s t : Ledger} {payer payee : Bytes32} {amount : U64}

/-! ## Encoding -/

/-- A holder is read back, -/
theorem decodeHolder_enc (holder : Bytes32 × U64) :
    decodeHolder (holderFormat.enc holder) = some holder := by
  obtain ⟨key, balance⟩ := holder
  have henc : holderFormat.enc (key, balance) = key.val ++ toLe balance := rfl
  have hkey := getRange_append [] key.val (toLe balance)
  have hbalance := getRange_append key.val (toLe balance) []
  rw [List.nil_append, List.length_nil, Nat.zero_add, key.property] at hkey
  rw [List.append_nil, key.property, length_toLe] at hbalance
  have hlen : (key.val ++ toLe balance).length = 32 + 64 / 8 := by
    rw [List.length_append, key.property, length_toLe]
  have htry : tryIntoArray 32 key.val = some key := tryIntoArray_eq_some.mpr rfl
  have htry' : tryIntoArray 8 (toLe balance) = some ⟨toLe balance, length_toLe balance⟩ :=
    tryIntoArray_eq_some.mpr rfl
  rw [henc]
  simp only [decodeHolder, hlen, hkey, hbalance, Option.bind_some, Option.bind_eq_bind, htry, htry',
    ofLe_toLe (show 8 ∣ 64 by decide)]

/-- and so are all of them. -/
theorem mapM_decodeHolder (holders : List (Bytes32 × U64)) :
    (holders.map holderFormat.enc).mapM decodeHolder = some holders := by
  induction holders with
  | nil => rfl
  | cons holder holders ih =>
      rw [List.map_cons, List.mapM_cons, decodeHolder_enc, ih]
      rfl

/-- The chunks of a table of holders. -/
theorem take_chunksExact (holders : List (Bytes32 × U64)) (rest : Bytes) :
    (chunksExact slotBytes (holders.flatMap holderFormat.enc ++ rest)).1.take holders.length =
      holders.map holderFormat.enc := by
  induction holders with
  | nil => rfl
  | cons holder holders ih =>
      have hslot : (holderFormat.enc holder).length = slotBytes := holderFormat.length_enc holder
      rw [List.flatMap_cons, List.append_assoc, chunksExact_append (by decide) hslot,
        List.length_cons, List.take_succ_cons, ih, List.map_cons]

/-- A sum of balances that fits a word is formed. -/
theorem foldlM_total (holders : List (Bytes32 × U64)) (start : U64)
    (h : start.toNat + total BitVec.toNat holders < 2 ^ 64) :
    holders.foldlM (fun total holder => wordCheckedAdd total holder.2) start =
      some (BitVec.ofNat 64 (start.toNat + total BitVec.toNat holders)) := by
  induction holders generalizing start with
  | nil =>
      rw [total_nil, Nat.add_zero, BitVec.ofNat_toNat, BitVec.setWidth_eq]
      rfl
  | cons holder holders ih =>
      rw [total_cons] at h ⊢
      have hfits : start.toNat + holder.2.toNat < 2 ^ 64 := by omega
      have hnext : (start + holder.2).toNat = start.toNat + holder.2.toNat :=
        BitVec.toNat_add_of_lt hfits
      rw [List.foldlM_cons, wordCheckedAdd_of_lt hfits, Option.bind_eq_bind, Option.bind_some,
        ih _ (by omega), hnext, Nat.add_assoc]

namespace Valid

/-- The lengths of the parts of a state, -/
theorem lengths_encode (h : s.Valid) :
    [toLe s.supply, toLe ((tryFromUsize 32 s.holders.length).getD (BitVec.allOnes 32)),
      (zeros 4).val, (s.holders.take holderSlots).flatMap holderFormat.enc,
      (zeros ((holderSlots - s.holders.length) * slotBytes)).val].map List.length =
      [8, 4, 4, s.holders.length * 40, (8 - s.holders.length) * 40] := by
  have hslots : ((s.holders.take holderSlots).flatMap holderFormat.enc).length =
      s.holders.length * 40 := by
    rw [List.take_of_length_le h.holders_le]
    exact holderFormat.length_flatMap_enc s.holders
  simp only [List.map_cons, List.map_nil, hslots, length_toLe, length_bytesN]

/-- and that of the state. -/
theorem length_encode (h : s.Valid) : s.encode.length = stateBytes := by
  have hle : s.holders.length ≤ 8 := h.holders_le
  rw [encode, length_flatten_of_lengths h.lengths_encode]
  simp only [List.sum_cons, List.sum_nil]
  show _ = 336
  omega

/-- **A ledger in order is read back.** -/
theorem decode_encode [Target] (h : s.Valid) : decode s.encode = some s := by
  have hle : s.holders.length ≤ 8 := h.holders_le
  have hlen := h.length_encode
  have hcount : tryFromUsize 32 s.holders.length = some (BitVec.ofNat 32 s.holders.length) :=
    tryFromUsize_eq_some.mpr ⟨by omega, rfl⟩
  have hvalue : (BitVec.ofNat 32 s.holders.length).toNat = s.holders.length := by
    rw [BitVec.toNat_ofNat, Nat.mod_eq_of_lt (by omega)]
  have hbytes : s.encode.length =
      [8, 4, 4, s.holders.length * 40, (8 - s.holders.length) * 40].sum := by
    rw [hlen]
    simp only [List.sum_cons, List.sum_nil]
    show 336 = _
    omega
  have hparts := (flatten_eq_iff h.lengths_encode hbytes).mp rfl
  simp only [splitParts, List.cons.injEq, Nat.zero_add, Nat.reduceAdd, hcount, Option.getD_some]
    at hparts
  obtain ⟨hsupply, hholders, -⟩ := hparts
  have hfirst : getRange s.encode 0 8 = some (toLe s.supply) :=
    getRange_eq_some.mpr ⟨⟨by decide, by rw [hlen]; decide⟩, hsupply.symm⟩
  have hsecond : getRange s.encode 8 12 = some (toLe (BitVec.ofNat 32 s.holders.length)) :=
    getRange_eq_some.mpr ⟨⟨by decide, by rw [hlen]; decide⟩, hholders.symm⟩
  have htable : s.encode.drop headerBytes = s.holders.flatMap holderFormat.enc ++
      (zeros ((holderSlots - s.holders.length) * slotBytes)).val := by
    have hfront : s.encode = (toLe s.supply ++ (toLe ((tryFromUsize 32 s.holders.length).getD
        (BitVec.allOnes 32)) ++ (zeros 4).val)) ++
          (s.holders.flatMap holderFormat.enc ++
            (zeros ((holderSlots - s.holders.length) * slotBytes)).val) := by
      rw [encode, List.take_of_length_le hle]
      simp
    rw [hfront]
    apply List.drop_left'
    simp only [List.length_append, length_toLe, length_bytesN]
  have hsupply' : tryIntoArray 8 (toLe s.supply) = some ⟨toLe s.supply, length_toLe _⟩ :=
    tryIntoArray_eq_some.mpr rfl
  have hcount' : tryIntoArray 4 (toLe (BitVec.ofNat 32 s.holders.length)) =
      some ⟨toLe (BitVec.ofNat 32 s.holders.length), length_toLe _⟩ := tryIntoArray_eq_some.mpr rfl
  have hfilter : (some s.holders.length).filter (fun n => decide (n ≤ holderSlots)) =
      some s.holders.length := by
    simp [Option.filter, hle]
  have hzero : (0 : U64).toNat = 0 := rfl
  have hfold := foldlM_total s.holders 0 (by rw [hzero, h.total_eq, Nat.zero_add]; exact s.supply.isLt)
  rw [hzero, Nat.zero_add, h.total_eq, BitVec.ofNat_toNat, BitVec.setWidth_eq] at hfold
  simp only [decode, hlen, hfirst, hsecond, Option.bind_some, Option.bind_eq_bind, hsupply',
    hcount', usizeTryFrom_eq, ofLe_toLe (show 8 ∣ 64 by decide), ofLe_toLe (show 8 ∣ 32 by decide),
    hvalue, hfilter, htable, take_chunksExact, mapM_decodeHolder, hfold, guard_true]
  rfl

end Valid

/-! ## Transfers -/

/-- The payer can pay, and there is room for the payee. -/
structure Permits (s : Ledger) (payer payee : Bytes32) (amount : U64) : Prop where
  covered : ∃ balance, valueOf payer s.holders = some balance ∧ amount ≤ balance
  room : (valueOf payee s.holders).isSome ∨ s.holders.length < holderSlots

/-- The balance of a key, zero if it is no holder. -/
def balance (s : Ledger) (key : Bytes32) : ℕ := ((valueOf key s.holders).map BitVec.toNat).getD 0

/-- **What a transfer does**: the amount goes from the payer to the payee, and nothing else changes;
between a key and itself nothing changes at all. -/
structure Moved (s : Ledger) (payer payee : Bytes32) (amount : U64) (t : Ledger) : Prop where
  supply_eq : t.supply = s.supply
  payer_eq : payer ≠ payee → t.balance payer + amount.toNat = s.balance payer
  payee_eq : payer ≠ payee → t.balance payee = s.balance payee + amount.toNat
  others_eq : ∀ key, key ≠ payer → key ≠ payee → valueOf key t.holders = valueOf key s.holders
  self_eq : payer = payee → ∀ key, valueOf key t.holders = valueOf key s.holders

/-- The balance of a holder, -/
theorem balance_of_valueOf {key : Bytes32} {v : U64} (h : valueOf key s.holders = some v) :
    s.balance key = v.toNat := by
  unfold balance
  rw [h]
  rfl

/-- and that of anyone else. -/
theorem balance_of_none {key : Bytes32} (h : valueOf key s.holders = none) : s.balance key = 0 := by
  unfold balance
  rw [h]
  rfl

/-- The ledger after a payment, before it is credited. -/
def debited (s : Ledger) (payer : Bytes32) (left : U64) : List (Bytes32 × U64) :=
  setFirst payer left s.holders

/-- A debit changes the payer alone. -/
theorem valueOf_debited {key : Bytes32} {v left : U64} (h : valueOf payer s.holders = some v) :
    valueOf key (s.debited payer left) = if key = payer then some left else valueOf key s.holders := by
  unfold debited
  rw [valueOf_setFirst, h]
  rfl

/-- What is left and the payment are what was there. -/
theorem total_debited {v left : U64} (h : valueOf payer s.holders = some v)
    (hleft : left.toNat + amount.toNat = v.toNat) :
    total BitVec.toNat (s.debited payer left) + amount.toNat = total BitVec.toNat s.holders := by
  have hsum := total_setFirst (f := BitVec.toNat) (v := left) h
  unfold debited
  omega

/-- The transfer with its payer found. -/
theorem transfer_eq {v left : U64} (h : valueOf payer s.holders = some v)
    (hleft : left.toNat + amount.toNat = v.toNat) :
    s.transfer payer payee amount = s.credit (s.debited payer left) payee amount := by
  have hsub : wordCheckedSub v amount = some left := wordCheckedSub_eq_some.mpr (by omega)
  unfold transfer
  rw [h, okOr_some, ok_bind, hsub, okOr_some, ok_bind]
  rfl

/-- A holder is credited: the balance of the payee fits a word, because the supply does. -/
theorem Valid.credit_lt (h : s.Valid) {v left w : U64} (hv : valueOf payer s.holders = some v)
    (hleft : left.toNat + amount.toNat = v.toNat)
    (hw : valueOf payee (s.debited payer left) = some w) : w.toNat + amount.toNat < 2 ^ 64 := by
  have hle := le_total (f := BitVec.toNat) hw
  have hsum := total_debited hv hleft
  have htotal := h.total_eq
  have hlt := s.supply.isLt
  omega

/-- The ledger after a transfer to a holder. -/
def credited (s : Ledger) (payer payee : Bytes32) (left w amount : U64) : Ledger :=
  { s with holders := setFirst payee (w + amount) (s.debited payer left) }

/-- The ledger after a transfer to a key that was no holder. -/
def joined (s : Ledger) (payer payee : Bytes32) (left amount : U64) : Ledger :=
  { s with holders := s.debited payer left ++ [(payee, amount)] }

/-- **The ways of a transfer**: to a holder, or to a new one. -/
theorem Valid.transfer_cases (h : s.Valid) : s.transfer payer payee amount = .ok t ↔
    ∃ v left : U64, valueOf payer s.holders = some v ∧ left.toNat + amount.toNat = v.toNat ∧
      ((∃ w, valueOf payee (s.debited payer left) = some w ∧
          s.credited payer payee left w amount = t) ∨
        valueOf payee (s.debited payer left) = none ∧ s.holders.length < holderSlots ∧
          s.joined payer payee left amount = t) := by
  have hle := h.holders_le
  have hlen (left : U64) : (s.debited payer left).length = s.holders.length := length_setFirst
  have hcredit {v left : U64} (hv : valueOf payer s.holders = some v)
      (hleft : left.toNat + amount.toNat = v.toNat) :
      s.credit (s.debited payer left) payee amount = .ok t ↔
        ((∃ w, valueOf payee (s.debited payer left) = some w ∧
            s.credited payer payee left w amount = t) ∨
          valueOf payee (s.debited payer left) = none ∧ s.holders.length < holderSlots ∧
            s.joined payer payee left amount = t) := by
    unfold credit
    cases hw : valueOf payee (s.debited payer left) with
    | some w =>
        simp only [wordCheckedAdd_of_lt (h.credit_lt hv hleft hw), okOr_some, ok_bind, pure_ok_iff,
          Option.some.injEq, exists_eq_left', reduceCtorEq, false_and, or_false]
        rfl
    | none =>
        simp only [bind_ok_iff, failIf_ok_iff, exists_const, pure_ok_iff, hlen, reduceCtorEq,
          false_and, false_or, true_and]
        exact and_congr_left fun _ => ⟨fun hne => lt_of_le_of_ne hle hne, ne_of_lt⟩
  constructor
  · intro hok
    have hparts := hok
    simp only [transfer, bind_ok_iff, okOr_ok_iff, wordCheckedSub_eq_some] at hparts
    obtain ⟨v, hv, left, hleft, -⟩ := hparts
    have hadd : left.toNat + amount.toNat = v.toNat := by omega
    rw [transfer_eq hv hadd] at hok
    exact ⟨v, left, hv, hadd, (hcredit hv hadd).mp hok⟩
  · rintro ⟨v, left, hv, hleft, hrest⟩
    rw [transfer_eq hv hleft]
    exact (hcredit hv hleft).mpr hrest

/-- **A transfer succeeds** exactly when the payer can pay and there is room for the payee. -/
theorem Valid.exists_transfer_iff (h : s.Valid) :
    (∃ t, s.transfer payer payee amount = .ok t) ↔ s.Permits payer payee amount := by
  have hnone {v left : U64} (hv : valueOf payer s.holders = some v) :
      valueOf payee (s.debited payer left) = none ↔ valueOf payee s.holders = none := by
    rw [valueOf_debited hv]
    by_cases hpayee : payee = payer
    · rw [if_pos hpayee, hpayee, hv]
      simp
    · rw [if_neg hpayee]
  simp only [h.transfer_cases]
  constructor
  · rintro ⟨t, v, left, hv, hleft, hrest⟩
    refine ⟨⟨v, hv, BitVec.le_def.mpr (by omega)⟩, ?_⟩
    rcases hrest with ⟨w, hw, -⟩ | ⟨-, hlt, -⟩
    · apply Or.inl
      rw [Option.isSome_iff_ne_none, ne_eq, ← hnone hv, hw]
      exact Option.some_ne_none w
    · exact .inr hlt
  · rintro ⟨⟨v, hv, hle⟩, hroom⟩
    rw [BitVec.le_def] at hle
    obtain ⟨left, hleft⟩ := exists_word_of_le (x := v) (m := v.toNat - amount.toNat) (by omega)
    have hadd : left.toNat + amount.toNat = v.toNat := by omega
    cases hw : valueOf payee (s.debited payer left) with
    | some w => exact ⟨_, v, left, hv, hadd, .inl ⟨w, hw, rfl⟩⟩
    | none =>
        have hlt : s.holders.length < holderSlots := by
          rcases hroom with hsome | hlt
          · rw [(hnone hv).mp hw] at hsome
            exact absurd hsome (by simp)
          · exact hlt
        exact ⟨_, v, left, hv, hadd, .inr ⟨hw, hlt, rfl⟩⟩

/-- **A transfer keeps the ledger in order.** -/
theorem Valid.transfer (h : s.Valid) (hok : s.transfer payer payee amount = .ok t) : t.Valid := by
  obtain ⟨v, left, hv, hleft, hrest⟩ := h.transfer_cases.mp hok
  have htotal := total_debited hv hleft
  have hsupply := h.total_eq
  rcases hrest with ⟨w, hw, rfl⟩ | ⟨hw, hlt, rfl⟩
  · refine ⟨?_, ?_, ?_⟩
    · show (setFirst payee (w + amount) (setFirst payer left s.holders)).length ≤ holderSlots
      rw [length_setFirst, length_setFirst]
      exact h.holders_le
    · show ((setFirst payee (w + amount) (setFirst payer left s.holders)).map Prod.fst).Nodup
      rw [keys_setFirst, keys_setFirst]
      exact h.distinct
    · have hsum := total_setFirst (f := BitVec.toNat) (v := w + amount) hw
      have hvalue : (w + amount).toNat = w.toNat + amount.toNat :=
        BitVec.toNat_add_of_lt (h.credit_lt hv hleft hw)
      show total BitVec.toNat (setFirst payee (w + amount) (s.debited payer left)) = s.supply.toNat
      omega
  · refine ⟨?_, ?_, ?_⟩
    · show (setFirst payer left s.holders ++ [(payee, amount)]).length ≤ holderSlots
      rw [List.length_append, length_setFirst]
      exact hlt
    · show ((setFirst payer left s.holders ++ [(payee, amount)]).map Prod.fst).Nodup
      have hfresh := valueOf_eq_none_iff.mp hw
      have hkeys : (s.debited payer left).map Prod.fst = s.holders.map Prod.fst := keys_setFirst
      rw [hkeys] at hfresh
      rw [List.map_append, keys_setFirst, List.map_singleton]
      refine List.nodup_append.mpr ⟨h.distinct, List.nodup_singleton _, ?_⟩
      rintro key hkey _ hpayee rfl
      rw [List.mem_singleton.mp hpayee] at hkey
      exact hfresh hkey
    · show total BitVec.toNat (s.debited payer left ++ [(payee, amount)]) = s.supply.toNat
      rw [total_append, total_cons, total_nil]
      show _ + (amount.toNat + 0) = _
      omega

/-- **A transfer moves the amount**, and nothing else. -/
theorem Valid.transfer_moved (h : s.Valid) (hok : s.transfer payer payee amount = .ok t) :
    s.Moved payer payee amount t := by
  obtain ⟨v, left, hv, hleft, hrest⟩ := h.transfer_cases.mp hok
  rcases hrest with ⟨w, hw, rfl⟩ | ⟨hw, hlt, rfl⟩
  · -- the payee has an account
    have hvalue : (w + amount).toNat = w.toNat + amount.toNat :=
      BitVec.toNat_add_of_lt (h.credit_lt hv hleft hw)
    have hnext (key : Bytes32) : valueOf key (s.credited payer payee left w amount).holders =
        if key = payee then some (w + amount) else if key = payer then some left
          else valueOf key s.holders := by
      show valueOf key (setFirst payee (w + amount) (s.debited payer left)) = _
      rw [valueOf_setFirst, hw, valueOf_debited hv]
      rfl
    rw [valueOf_debited hv] at hw
    refine ⟨rfl, fun hne => ?_, fun hne => ?_, fun key hpayer hpayee => ?_, fun heq key => ?_⟩
    · have hpayer : valueOf payer (s.credited payer payee left w amount).holders = some left := by
        rw [hnext, if_neg hne, if_pos rfl]
      rw [balance_of_valueOf hpayer, balance_of_valueOf hv]
      exact hleft
    · have hpayee : valueOf payee (s.credited payer payee left w amount).holders =
          some (w + amount) := by
        rw [hnext, if_pos rfl]
      rw [if_neg hne.symm] at hw
      rw [balance_of_valueOf hpayee, balance_of_valueOf hw, hvalue]
    · rw [hnext, if_neg hpayee, if_neg hpayer]
    · subst heq
      rw [if_pos rfl, Option.some.injEq] at hw
      subst hw
      rw [hnext]
      by_cases hkey : key = payer
      · rw [if_pos hkey, hkey, hv, Option.some.injEq]
        apply BitVec.eq_of_toNat_eq
        rw [hvalue, hleft]
      · rw [if_neg hkey, if_neg hkey]
  · -- the payee gets an account
    have hne : payee ≠ payer := by
      rintro rfl
      rw [valueOf_debited hv, if_pos rfl] at hw
      exact Option.some_ne_none left hw
    have hnext (key : Bytes32) : valueOf key (s.joined payer payee left amount).holders =
        (if key = payer then some left else valueOf key s.holders).or
          (if payee = key then some amount else none) := by
      show valueOf key (s.debited payer left ++ [(payee, amount)]) = _
      rw [valueOf_append, valueOf_debited hv, valueOf_cons, valueOf_nil]
    rw [valueOf_debited hv, if_neg hne] at hw
    refine ⟨rfl, fun _ => ?_, fun _ => ?_, fun key hpayer hpayee => ?_, fun heq => absurd heq.symm hne⟩
    · have hpayer : valueOf payer (s.joined payer payee left amount).holders = some left := by
        rw [hnext, if_pos rfl]
        rfl
      rw [balance_of_valueOf hpayer, balance_of_valueOf hv]
      exact hleft
    · have hpayee : valueOf payee (s.joined payer payee left amount).holders = some amount := by
        rw [hnext, if_neg hne, hw, if_pos rfl]
        rfl
      rw [balance_of_valueOf hpayee, balance_of_none hw, Nat.zero_add]
    · rw [hnext, if_neg hpayer, if_neg (Ne.symm hpayee), Option.or_none]

/-- A transfer never finds the ledger in disorder. -/
theorem Valid.raises_transfer (h : s.Valid) :
    Raises (s.transfer payer payee amount) fun e => e ≠ 0 ∧ e ≠ invalidTokenState := by
  have hinsufficient (x : Option U64) :
      Raises (okOr x insufficientBalance) fun e => e ≠ 0 ∧ e ≠ invalidTokenState :=
    raises_okOr fun _ => by decide
  unfold Ledger.transfer
  refine (hinsufficient _).bind fun v hv => (hinsufficient _).bind fun left hleft => ?_
  have hv := okOr_ok_iff.mp hv
  have hleft := wordCheckedSub_eq_some.mp (okOr_ok_iff.mp hleft)
  show Raises (s.credit (s.debited payer left) payee amount) _
  unfold credit
  cases hw : valueOf payee (s.debited payer left) with
  | some w =>
      dsimp only
      rw [wordCheckedAdd_of_lt (h.credit_lt hv (by omega) hw)]
      exact raises_ok _
  | none => exact (raises_failIf fun _ => by decide).bind fun _ _ => raises_pure _

end Ledger

end AvmSdk.Token
