import AvmSdk.Contracts.Common

/-!
# The revenue hub: what vault and receivers share

The crate `revenue-hub/core`: error codes, method ids, the entitlement of a member, the body of a
payment and the events.

* `entitlement_ok_iff`: an entitlement is the share of the amount, rounded down.
  `entitlement_exact`: entitlements and their sums in numbers.
* `readPayment_ok_iff`: a payment body is read back exactly.
* `exists_event`: every event of the vault can be encoded.
-/

namespace AvmSdk.Hub

open Wire Sdk Contracts Shares

/-- Source: `HubResult` -/
abbrev HubResult (α : Type) := Except U32 α

/-! ## Constants -/

/-- Source: `MAX_MEMBERS` -/
abbrev maxMembers : ℕ := 16

/-- Source: `DENOMINATOR` -/
def denominator : U128 := 10000

/-- Source: `E_ARGS` -/
def eArgs : U32 := 3000
/-- Source: `E_AUTH` -/
def eAuth : U32 := 3001
/-- Source: `E_STATE` -/
def eState : U32 := 3002
/-- Source: `E_PAUSED` -/
def ePaused : U32 := 3003
/-- Source: `E_VALUE` -/
def eValue : U32 := 3004
/-- Source: `E_BUSY` -/
def eBusy : U32 := 3005
/-- Source: `E_EMPTY` -/
def eEmpty : U32 := 3006
/-- Source: `E_CALLBACK` -/
def eCallback : U32 := 3007
/-- Source: `E_OVERFLOW` -/
def eOverflow : U32 := 3008
/-- Source: `E_BALANCE` -/
def eBalance : U32 := 3009
/-- Source: `E_GOVERNANCE` -/
def eGovernance : U32 := 3010
/-- Source: `E_DUPLICATE_VOTE` -/
def eDuplicateVote : U32 := 3011
/-- Source: `E_TIMELOCK` -/
def eTimelock : U32 := 3012
/-- Source: `E_EXPIRED` -/
def eExpired : U32 := 3013
/-- Source: `E_QUORUM` -/
def eQuorum : U32 := 3014

namespace Ids

/-- Source: `ids::DEPOSIT` -/
def deposit : U64 := 0xee821ec11d072a34
/-- Source: `ids::CLAIM` -/
def claim : U64 := 0xefc7ada73d7d352d
/-- Source: `ids::CALLBACK` -/
def callback : U64 := 0x91e93517798b3feb
/-- Source: `ids::PROPOSE` -/
def propose : U64 := 0xeb376b0e2f001049
/-- Source: `ids::VOTE` -/
def vote : U64 := 0x0f4b8aea3bed98ff
/-- Source: `ids::EXECUTE` -/
def execute : U64 := 0x0b846b6089f9f203
/-- Source: `ids::STATUS` -/
def status : U64 := 0x7fc72fed16fd3f41
/-- Source: `ids::TOPUP` -/
def topup : U64 := 0xa6287b2455133d06
/-- Source: `ids::RECEIVE` -/
def receive : U64 := 0x59c85fd6f329115f
/-- Source: `ids::BIND` -/
def bind : U64 := 0xcd447c5e444b1261
/-- Source: `ids::REJECT` -/
def reject : U64 := 0x091b2381980265d8
/-- Source: `ids::RECEIVER_STATUS` -/
def receiverStatus : U64 := 0xd94c3508ba861312
/-- Source: `ids::AUDIT_RECORD` -/
def auditRecord : U64 := 0x9174e9df045baa84
/-- Source: `ids::DUPLICATE_AUDIT` -/
def duplicateAudit : U64 := 0x076bed1648d4c62c
/-- Source: `ids::EVENT_CREATED` -/
def eventCreated : U64 := 0x71ec1f018be626a4
/-- Source: `ids::EVENT_DEPOSITED` -/
def eventDeposited : U64 := 0x6d24ed242593d124
/-- Source: `ids::EVENT_CLAIM_PENDING` -/
def eventClaimPending : U64 := 0x2d7a9bf450938dc3
/-- Source: `ids::EVENT_CLAIM_SETTLED` -/
def eventClaimSettled : U64 := 0xebde994624a16e2e
/-- Source: `ids::EVENT_CLAIM_FAILED` -/
def eventClaimFailed : U64 := 0xb09c41a209f8f87d
/-- Source: `ids::EVENT_PROPOSED` -/
def eventProposed : U64 := 0x33308d7ed2d69d29
/-- Source: `ids::EVENT_VOTED` -/
def eventVoted : U64 := 0x88f8bc0db4117ed3
/-- Source: `ids::EVENT_EXECUTED` -/
def eventExecuted : U64 := 0xf0daabd551426fca
/-- Source: `ids::EVENT_STATUS` -/
def eventStatus : U64 := 0x75403d3e78643495
/-- Source: `ids::EVENT_FEES_ADDED` -/
def eventFeesAdded : U64 := 0x6a7a1b3c0154fe74
/-- Source: `ids::EVENT_AUDITED` -/
def eventAudited : U64 := 0x60e231e6813a96aa

end Ids

/-! ## Definitions -/

/-- Source: `entitlement` -/
def entitlement (total : U128) (weight : U16) : HubResult U128 := do
  failIf (weight = 0 ∨ denominator < weight.zeroExtend 128) eArgs
  okOr (checkedShare denominator total (weight.zeroExtend 128)) eOverflow

/-- Source: `payment_body` -/
def paymentBody (index : U8) (nonce : U64) (amount : U128) : Bytes :=
  index :: (toLe nonce ++ toLe amount)

/-- Source: `read_payment` -/
def readPayment [Target] (b : Bytes) : HubResult (ℕ × U64 × U128) := do
  failIf (b.length ≠ 25 ∨ maxMembers ≤ (b.getD 0 0).toNat) eArgs
  let nonce ← wordAt eArgs 64 b 1
  let amount ← wordAt eArgs 128 b 9
  failIf (nonce = 0 ∨ amount = 0) eArgs
  pure ((b.getD 0 0).toNat, nonce, amount)

/-- Source: `event`, `let class` -/
def eventClass (name : String) : HubResult U64 :=
  match name with
  | "hub.created" => .ok Ids.eventCreated
  | "hub.deposited" => .ok Ids.eventDeposited
  | "hub.claim_pending" => .ok Ids.eventClaimPending
  | "hub.claim_settled" => .ok Ids.eventClaimSettled
  | "hub.claim_failed" => .ok Ids.eventClaimFailed
  | "hub.proposed" => .ok Ids.eventProposed
  | "hub.voted" => .ok Ids.eventVoted
  | "hub.executed" => .ok Ids.eventExecuted
  | "hub.status" => .ok Ids.eventStatus
  | "hub.fees_added" => .ok Ids.eventFeesAdded
  | "hub.audited" => .ok Ids.eventAudited
  | _ => .error eArgs

/-- Source: `event` -/
def event (inputIndex : U32) (name : String) (fields : List EventField) : HubResult EventIntent := do
  -- `sort_by` is stable, and strings are compared as their bytes
  let fields := fields.mergeSort fun a b => decide (asBytes a.name ≤ asBytes b.name)
  let eventClass ← eventClass name
  let fieldsBinary ← (encodeEventFields fields).mapError fun _ => eState
  pure ⟨inputIndex, .external, eventClass, name, [], fieldsBinary⟩

/-! ## Entitlements -/

/-- The denominator of the shares. -/
@[simp] theorem toNat_denominator : denominator.toNat = 10000 := rfl

/-- **An entitlement** is the share of the amount. -/
theorem entitlement_ok_iff {total : U128} {weight : U16} {v : U128} (hpos : weight ≠ 0)
    (hle : weight.toNat ≤ 10000) :
    entitlement total weight = .ok v ↔ v.toNat = share 10000 total.toNat weight.toNat := by
  have hweight : (weight.zeroExtend 128).toNat = weight.toNat := by
    rw [BitVec.toNat_setWidth, Nat.mod_eq_of_lt (by omega)]
  have hguard : ¬ (weight = 0 ∨ denominator < weight.zeroExtend 128) := by
    rw [not_or, BitVec.lt_def, hweight, toNat_denominator]
    exact ⟨hpos, by omega⟩
  have hshare : checkedShare denominator total (weight.zeroExtend 128) = some v ↔
      v.toNat = share 10000 total.toNat weight.toNat := by
    rw [checkedShare_eq_some (by decide) (by rw [hweight]; exact hle) (by decide),
      toNat_denominator, hweight]
  simp only [entitlement, bind_ok_iff, failIf_ok_iff, hguard, not_false_eq_true, exists_const, true_and,
    okOr_ok_iff, hshare]

/-- A weight in range has an entitlement in every amount. -/
theorem exists_entitlement (total : U128) {weight : U16} (hpos : weight ≠ 0)
    (hle : weight.toNat ≤ 10000) : ∃ v, entitlement total weight = .ok v := by
  have hlt : share 10000 total.toNat weight.toNat < 2 ^ 128 := (share_le hle).trans_lt total.isLt
  refine ⟨BitVec.ofNat 128 (share 10000 total.toNat weight.toNat), ?_⟩
  rw [entitlement_ok_iff hpos hle, BitVec.toNat_ofNat, Nat.mod_eq_of_lt hlt]

/-- The code of a weight out of range. -/
theorem entitlement_eq_error {total : U128} {weight : U16} (h : weight = 0 ∨ 10000 < weight.toNat) :
    entitlement total weight = .error eArgs := by
  have hguard : weight = 0 ∨ denominator < weight.zeroExtend 128 := by
    rw [BitVec.lt_def, BitVec.toNat_setWidth, toNat_denominator,
      Nat.mod_eq_of_lt (weight.isLt.trans (by decide))]
    exact h
  unfold entitlement
  rw [failIf, if_pos hguard]
  rfl

/-- The checked sum of the entitlements of a list of weights.
Source: `State::dust`, `try_fold` -/
def sumEntitlements (total : U128) (weights : List U16) : HubResult U128 :=
  weights.foldlM (fun sum weight => do
    let part ← entitlement total weight
    okOr (wordCheckedAdd sum part) eState) 0

/-- Weights in range have entitlements that are summed exactly. -/
theorem sumEntitlements_ok_iff {total : U128} {weights : List U16} {sum : U128}
    (h : ∀ w ∈ weights, w ≠ 0 ∧ w.toNat ≤ 10000) :
    sumEntitlements total weights = .ok sum ↔
      sum.toNat = (weights.map fun w => share 10000 total.toNat w.toNat).sum := by
  have hstep (t : U128) (w : U16) (u : U128) :
      (do let part ← entitlement total w; okOr (wordCheckedAdd t part) eState) = Except.ok u ↔
        (w ≠ 0 ∧ w.toNat ≤ 10000) ∧ u.toNat = t.toNat + share 10000 total.toNat w.toNat := by
    by_cases hw : w ≠ 0 ∧ w.toNat ≤ 10000
    · simp only [bind_ok_iff, entitlement_ok_iff hw.1 hw.2, okOr_ok_iff, wordCheckedAdd_eq_some, hw,
        ne_eq, not_false_eq_true, true_and]
      constructor
      · rintro ⟨part, hpart, hu⟩
        rw [← hpart, hu]
      · intro hu
        obtain ⟨part, hpart⟩ := exists_word_of_le (x := u) (Nat.le.intro (hu.trans
          (Nat.add_comm _ _)).symm)
        exact ⟨part, hpart, by rw [hpart, hu]⟩
    · have hout : w = 0 ∨ 10000 < w.toNat := by
        rw [not_and_or, not_not, Nat.not_le] at hw
        exact hw
      rw [entitlement_eq_error hout]
      apply iff_of_false
      · intro h
        cases h
      · intro h
        exact hw h.1
  unfold sumEntitlements
  rw [foldlM_word_iff hstep]
  exact and_iff_right h

/-- **The entitlement split.** An entitlement is the rounded part, grows with the amount, and is
computed without overflow; the entitlements of weights that sum up to the whole can be summed, and
fall short of the amount by less than one unit a weight. -/
theorem entitlement_exact :
    (∀ (total : U128) (weight : U16), 1 ≤ weight.toNat → weight.toNat ≤ 10000 →
      (∃ v, entitlement total weight = .ok v ∧
        v.toNat = total.toNat * weight.toNat / 10000) ∧
      Below (2 ^ 128) 10000 total.toNat weight.toNat) ∧
    (∀ (total total' : U128) (weight : U16) (v v' : U128), total ≤ total' →
      entitlement total weight = .ok v → entitlement total' weight = .ok v' → v ≤ v') ∧
    (∀ (total : U128) (weights : List U16), 1 ≤ weights.length →
      (∀ w ∈ weights, 1 ≤ w.toNat ∧ w.toNat ≤ 10000) → (weights.map BitVec.toNat).sum = 10000 →
      ∃ sum, sumEntitlements total weights = .ok sum ∧
        sum.toNat = (weights.map fun w => total.toNat * w.toNat / 10000).sum ∧
        sum ≤ total ∧ total.toNat - sum.toNat < weights.length) ∧
    (∀ (total : U128) (weight : U16), weight = 0 ∨ 10000 < weight.toNat →
      entitlement total weight = .error eArgs) := by
  have hne {weight : U16} (h : 1 ≤ weight.toNat) : weight ≠ 0 := by
    rintro rfl
    exact absurd h (by decide)
  refine ⟨fun total weight hpos hle => ⟨?_, ?_⟩, fun total total' weight v v' htotal hv hv' => ?_,
    fun total weights _ hweights hsum => ?_, fun _ _ => entitlement_eq_error⟩
  · obtain ⟨v, hv⟩ := exists_entitlement total (hne hpos) hle
    exact ⟨v, hv, (entitlement_ok_iff (hne hpos) hle).mp hv⟩
  · exact below_of_lt (by decide) hle total.isLt (by decide)
  · by_cases hout : weight = 0 ∨ 10000 < weight.toNat
    · rw [entitlement_eq_error hout] at hv
      cases hv
    · rw [not_or, Nat.not_lt] at hout
      rw [entitlement_ok_iff hout.1 hout.2] at hv hv'
      rw [BitVec.le_def, hv, hv']
      exact share_mono (BitVec.le_def.mp htotal)
  · have hshares : weights.map (fun w => share 10000 total.toNat w.toNat) =
        (weights.map BitVec.toNat).map (share 10000 total.toNat) := by
      rw [List.map_map]
      rfl
    have hle : (weights.map fun w => share 10000 total.toNat w.toNat).sum ≤ total.toNat := by
      rw [hshares]
      exact sum_map_share_le hsum
    have hlt : total.toNat <
        (weights.map fun w => share 10000 total.toNat w.toNat).sum + weights.length := by
      rw [hshares, ← weights.length_map BitVec.toNat]
      exact lt_sum_map_share_add_length (by decide) hsum
    obtain ⟨sum, hvalue⟩ := exists_word_of_le hle
    refine ⟨sum, ?_, hvalue, ?_, ?_⟩
    · exact (sumEntitlements_ok_iff fun w hw => ⟨hne (hweights w hw).1, (hweights w hw).2⟩).mpr hvalue
    · rw [BitVec.le_def, hvalue]
      exact hle
    · omega

/-! ## Payment bodies -/

/-- The length of a payment. -/
@[simp] theorem length_paymentBody (index : U8) (nonce : U64) (amount : U128) :
    (paymentBody index nonce amount).length = 25 := by
  simp [paymentBody]

/-- **A payment body** is read back exactly, if it names a member, a nonce and an amount. -/
theorem readPayment_ok_iff [Target] {b : Bytes} {i : ℕ} {nonce : U64} {amount : U128} :
    readPayment b = .ok (i, nonce, amount) ↔
      ∃ index : U8, index.toNat = i ∧ i < maxMembers ∧ nonce ≠ 0 ∧ amount ≠ 0 ∧
        b = paymentBody index nonce amount := by
  have hparts (index : U8) : paymentBody index nonce amount =
      [[index], toLe nonce, toLe amount].flatten := by simp [paymentBody]
  have hlens (index : U8) :
      [[index], toLe nonce, toLe amount].map List.length = [1, 8, 16] := by simp
  simp only [readPayment, bind_ok_iff, failIf_ok_iff, pure_ok_iff, exists_const, Prod.mk.injEq,
    not_or, not_not, not_le]
  constructor
  · rintro ⟨⟨hlen, hi⟩, n, hn, a, ha, ⟨hn0, ha0⟩, rfl, rfl, rfl⟩
    rw [wordAt_ok_iff (by omega) (by decide) (by omega)] at hn ha
    refine ⟨b.getD 0 0, rfl, hi, hn0, ha0, ?_⟩
    rw [hparts, eq_comm, flatten_eq_iff (hlens _) hlen, hn, ha, splitParts,
      ← extract_one (by omega)]
    rfl
  · rintro ⟨index, rfl, hi, hn0, ha0, rfl⟩
    have hlen := length_paymentBody index nonce amount
    have hsplit := (flatten_eq_iff (hlens index) hlen).mp (hparts index).symm
    simp only [splitParts, List.cons.injEq] at hsplit
    refine ⟨⟨hlen, hi⟩, nonce, ?_, amount, ?_, ⟨hn0, ha0⟩, rfl, rfl, rfl⟩
    · exact (wordAt_ok_iff (by omega) (by decide) (by omega)).mpr hsplit.2.1
    · exact (wordAt_ok_iff (by omega) (by decide) (by omega)).mpr hsplit.2.2.1

/-- The nonce in the body of a payment. -/
def bodyNonce (b : Bytes) : U64 := ofLe 64 (b.extract 1 9)

/-- The amount in the body of a payment. -/
def bodyAmount (b : Bytes) : U128 := ofLe 128 (b.extract 9 25)

section

variable {index : U8} {nonce : U64} {amount : U128}

/-- The fields of a payment body stand at their places. -/
theorem splitParts_paymentBody (index : U8) (nonce : U64) (amount : U128) :
    splitParts 0 [1, 8, 16] (paymentBody index nonce amount) =
      [[index], toLe nonce, toLe amount] := by
  have hparts : paymentBody index nonce amount = [[index], toLe nonce, toLe amount].flatten := by
    simp [paymentBody]
  have hlens : [[index], toLe nonce, toLe amount].map List.length = [1, 8, 16] := by simp
  exact ((flatten_eq_iff hlens (length_paymentBody index nonce amount)).mp hparts.symm).symm

/-- The nonce that a payment names, -/
@[simp] theorem bodyNonce_paymentBody : bodyNonce (paymentBody index nonce amount) = nonce := by
  have hsplit := splitParts_paymentBody index nonce amount
  simp only [splitParts, List.cons.injEq] at hsplit
  unfold bodyNonce
  rw [hsplit.2.1]
  exact ofLe_toLe (by decide) nonce

/-- and the amount. -/
@[simp] theorem bodyAmount_paymentBody : bodyAmount (paymentBody index nonce amount) = amount := by
  have hsplit := splitParts_paymentBody index nonce amount
  simp only [splitParts, List.cons.injEq] at hsplit
  unfold bodyAmount
  rw [hsplit.2.2.1]
  exact ofLe_toLe (by decide) amount

end

/-- The errors of a body that is no payment. -/
theorem raises_readPayment [Target] {b : Bytes} : Raises (readPayment b) ErrorCode := by
  unfold readPayment
  refine (raises_failIf fun _ => errorCode rfl).bind fun _ _ => ?_
  refine (raises_wordAt (errorCode rfl)).bind fun _ _ => ?_
  refine (raises_wordAt (errorCode rfl)).bind fun _ _ => ?_
  exact (raises_failIf fun _ => errorCode rfl).bind fun _ _ => raises_pure _

/-! ## Events -/

/-- **An event** is built if its name is known and its fields are in order and short. -/
theorem exists_event {inputIndex : U32} {name : String} {fields : List EventField} {class' : U64}
    (hname : eventClass name = .ok class') (hlen : fields.length < 2 ^ 16)
    (hfits : ∀ f ∈ fields, f.Fits)
    (hnames : (fields.map fun f => f.packed.name).Pairwise (· < ·)) :
    ∃ e, event inputIndex name fields = .ok e := by
  have hsorted : fields.mergeSort (fun a b => decide (asBytes a.name ≤ asBytes b.name)) = fields := by
    refine List.mergeSort_of_pairwise ?_
    refine (List.pairwise_map.mp hnames).imp fun {a b} hab => ?_
    exact decide_eq_true (List.le_of_lt hab)
  have hencode := encodeEventFields_ok_iff.mpr ⟨hlen, hfits, hnames, rfl⟩
  exact ⟨_, by simp only [event, hsorted, hname, hencode]; rfl⟩

end AvmSdk.Hub
