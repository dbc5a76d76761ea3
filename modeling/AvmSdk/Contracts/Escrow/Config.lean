import AvmSdk.Contracts.Common

/-!
# The configuration of a bounty escrow

The numbers of the crate `bounty-escrow/contracts/escrow`, and the terms of an escrow: the owner, the
worker, the two accounts that can be paid and the milestones, fixed at the deployment.

* `Config.Valid`: what the decoder accepts; the amounts of the milestones add up to the total.
* `Config.decode_ok_iff`: the decoder accepts exactly the encodings of valid configurations.
-/

namespace AvmSdk.Escrow

open Wire Sdk Contracts

/-- Source: `Result` -/
abbrev ResultCode : Type → Type := Except U32

/-- Source: `CONFIG_BYTES` -/
abbrev configBytes : ℕ := 360

/-- Source: `MAX_MILESTONES` -/
abbrev maxMilestones : ℕ := 8

/-- Source: `MAX_ATTEMPTS` -/
abbrev maxAttempts : ℕ := 64

/-- Source: `ERR_ARGS` -/
def errArgs : U32 := 2000
/-- Source: `ERR_AUTH` -/
def errAuth : U32 := 2001
/-- Source: `ERR_STATE` -/
def errState : U32 := 2002
/-- Source: `ERR_PHASE` -/
def errPhase : U32 := 2003
/-- Source: `ERR_VALUE` -/
def errValue : U32 := 2004
/-- Source: `ERR_DEADLINE` -/
def errDeadline : U32 := 2005
/-- Source: `ERR_PENDING` -/
def errPending : U32 := 2006
/-- Source: `ERR_CALLBACK` -/
def errCallback : U32 := 2007
/-- Source: `ERR_LIMIT` -/
def errLimit : U32 := 2008
/-- Source: `ERR_BALANCE` -/
def errBalance : U32 := 2009

namespace Ids

/-- Source: `ids::FUND` -/
def fund : U64 := 0xc3a7a41d8d4c90a8
/-- Source: `ids::SUBMIT` -/
def submit : U64 := 0x054f8b90c305da8c
/-- Source: `ids::APPROVE` -/
def approve : U64 := 0x23db96fd54277c79
/-- Source: `ids::PAY` -/
def pay : U64 := 0x5dcaae75e94d2d7e
/-- Source: `ids::REFUND` -/
def refund : U64 := 0x8be8755cbb65918a
/-- Source: `ids::CALLBACK` -/
def callback : U64 := 0x0abddfd8d4552187
/-- Source: `ids::STATUS` -/
def status : U64 := 0x937ea1663d7fddb7
/-- Source: `ids::TOPUP` -/
def topup : U64 := 0x87655bb82b51d673
/-- Source: `ids::RECEIVE` -/
def receive : U64 := 0xb914fe67cce93577
/-- Source: `ids::BIND` -/
def bind : U64 := 0x4ce368a64e18d258
/-- Source: `ids::REJECT` -/
def reject : U64 := 0x95bd52c9e37338ec
/-- Source: `ids::EVENT_CREATED` -/
def eventCreated : U64 := 0xd6f347263848367f
/-- Source: `ids::EVENT_STATUS` -/
def eventStatus : U64 := 0x2cd964cba5d7abd3
/-- Source: `ids::EVENT_FEES_ADDED` -/
def eventFeesAdded : U64 := 0x6cb4e9405443b5e8
/-- Source: `ids::EVENT_FUNDED` -/
def eventFunded : U64 := 0x6e79b300e05131f5
/-- Source: `ids::EVENT_SUBMITTED` -/
def eventSubmitted : U64 := 0x1265d0886b8e4195
/-- Source: `ids::EVENT_APPROVED` -/
def eventApproved : U64 := 0x5dc6e5f43138deff
/-- Source: `ids::EVENT_TRANSFER_PENDING` -/
def eventTransferPending : U64 := 0x7d771b27760e1fec
/-- Source: `ids::EVENT_TRANSFER_SETTLED` -/
def eventTransferSettled : U64 := 0x1d70978e718474fb
/-- Source: `ids::EVENT_TRANSFER_FAILED` -/
def eventTransferFailed : U64 := 0x31ec38b30d0f5b22

end Ids

/-- Source: `Config` -/
structure Config where
  owner : Bytes32
  worker : Bytes32
  refundTo : AccountAddress
  payTo : AccountAddress
  total : U128
  deadline : U32
  count : U8
  amounts : Fin maxMilestones → U128
  fuelReserve : U128

namespace Config

/-- The checked sum of all amounts. Source: `Config::decode`, `try_fold` -/
def sum (amounts : Fin maxMilestones → U128) : Option U128 :=
  (List.finRange maxMilestones).foldlM (fun a i => wordCheckedAdd a (amounts i)) 0

/-- Source: `Config::decode` -/
def decode [Target] (b : Bytes) : ResultCode Config := do
  failIf (b.length ≠ configBytes ∨ b.extract 213 216 ≠ (zeros 3).val) errArgs
  let amounts ← tabulateM maxMilestones fun i => wordAt errArgs 128 b (216 + i.val * 16)
  let owner ← arrayAt errArgs 32 b 0
  let worker ← arrayAt errArgs 32 b 32
  let refundTo ← addressAt errArgs b 64
  let payTo ← addressAt errArgs b 128
  let total ← wordAt errArgs 128 b 192
  let deadline ← wordAt errArgs 32 b 208
  let fuelReserve ← wordAt errArgs 128 b 344
  let config : Config :=
    ⟨owner, worker, refundTo, payTo, total, deadline, b.getD 212 0, amounts, fuelReserve⟩
  let n := config.count.toNat
  failIf (n = 0 ∨ maxMilestones < n ∨ config.owner = zeros 32 ∨ config.worker = zeros 32 ∨
    config.owner = config.worker ∨ ¬ nonzeroAddress config.payTo ∨
    ¬ nonzeroAddress config.refundTo ∨ config.payTo = config.refundTo ∨ config.total = 0 ∨
    config.deadline = 0 ∨ config.fuelReserve = 0 ∨
    (∃ i ∈ firstIndices maxMilestones n, config.amounts i = 0) ∨
    ∃ i : Fin maxMilestones, n ≤ i.val ∧ config.amounts i ≠ 0) errArgs
  failIf (sum config.amounts ≠ some config.total) errArgs
  pure config

/-- The fields one after the other, as they stand in the buffer of zeros that the source fills.
Source: `Config::encode` -/
def encode (self : Config) : Bytes :=
  [self.owner.val, self.worker.val, self.refundTo.toBytes, self.payTo.toBytes, toLe self.total,
    toLe self.deadline, [self.count], (zeros 3).val,
    (List.ofFn fun i => toLe (self.amounts i)).flatten, toLe self.fuelReserve].flatten

/-- The milestones of a configuration are those below its count. -/
abbrev Active (c : Config) (i : Fin maxMilestones) : Prop := i.val < c.count.toNat

/-- The configurations that pass the check. -/
structure Valid (c : Config) : Prop where
  count_ne_zero : c.count ≠ 0
  count_le : c.count.toNat ≤ maxMilestones
  owner_ne_zero : c.owner ≠ zeros 32
  worker_ne_zero : c.worker ≠ zeros 32
  owner_ne_worker : c.owner ≠ c.worker
  payTo_ne_zero : nonzeroAddress c.payTo
  refundTo_ne_zero : nonzeroAddress c.refundTo
  payTo_ne_refundTo : c.payTo ≠ c.refundTo
  total_ne_zero : c.total ≠ 0
  deadline_ne_zero : c.deadline ≠ 0
  fuelReserve_ne_zero : c.fuelReserve ≠ 0
  amount_ne_zero : ∀ i, c.Active i → c.amounts i ≠ 0
  idle : ∀ i, ¬ c.Active i → c.amounts i = 0
  total_eq : c.total.toNat = ∑ i, (c.amounts i).toNat

variable {c : Config}

/-- The sum in the words of the code. -/
theorem sum_eq_some {amounts : Fin maxMilestones → U128} {v : U128} :
    sum amounts = some v ↔ v.toNat = ∑ i, (amounts i).toNat := by
  have hzero : (0 : U128).toNat = 0 := rfl
  unfold sum
  rw [foldlM_checkedAdd_eq_some, sum_finRange, hzero, Nat.zero_add]

/-! ## Encoding -/

/-- The lengths of the fields of a configuration, -/
theorem lengths_encode (c : Config) :
    [c.owner.val, c.worker.val, c.refundTo.toBytes, c.payTo.toBytes, toLe c.total,
      toLe c.deadline, [c.count], (zeros 3).val, (List.ofFn fun i => toLe (c.amounts i)).flatten,
      toLe c.fuelReserve].map List.length = [32, 32, 64, 64, 16, 4, 1, 3, 128, 16] := by
  have hamounts : (List.ofFn fun i => toLe (c.amounts i)).flatten.length = 8 * 16 :=
    length_flatten_rows fun i => length_toLe _
  simp only [List.map_cons, List.map_nil, hamounts, length_toLe, length_bytesN,
    List.length_singleton, AccountAddress.length_toBytes]

/-- and that of them all. -/
@[simp] theorem length_encode (c : Config) : c.encode.length = configBytes :=
  length_flatten_of_lengths (lengths_encode c)

/-- A word is an encoding exactly when each field stands at its offset. -/
theorem encode_eq_iff {b : Bytes} (hlen : b.length = configBytes) :
    c.encode = b ↔
      c.owner.val = b.extract 0 32 ∧ c.worker.val = b.extract 32 64 ∧
        c.refundTo.toBytes = b.extract 64 128 ∧ c.payTo.toBytes = b.extract 128 192 ∧
        toLe c.total = b.extract 192 208 ∧ toLe c.deadline = b.extract 208 212 ∧
        c.count = b.getD 212 0 ∧ (zeros 3).val = b.extract 213 216 ∧
        (∀ i : Fin maxMilestones,
          toLe (c.amounts i) = b.extract (216 + i * 16) (216 + i * 16 + 16)) ∧
        toLe c.fuelReserve = b.extract 344 360 := by
  have hamounts : (List.ofFn fun i => toLe (c.amounts i)).flatten = b.extract 216 344 ↔
      ∀ i : Fin maxMilestones,
        toLe (c.amounts i) = b.extract (216 + i * 16) (216 + i * 16 + 16) :=
    flatten_rows_iff (fun i => length_toLe (c.amounts i)) (by rw [hlen]; decide)
  have hcount : b.extract 212 213 = [b.getD 212 0] := extract_one (by rw [hlen]; decide)
  rw [encode, flatten_eq_iff (lengths_encode c) hlen]
  simp only [splitParts, List.cons.injEq, and_true, Nat.reduceAdd, hcount, hamounts]

/-- What the decoder asks of the fields. -/
theorem valid_iff : c.Valid ↔
    ¬ (c.count.toNat = 0 ∨ maxMilestones < c.count.toNat ∨ c.owner = zeros 32 ∨
      c.worker = zeros 32 ∨ c.owner = c.worker ∨ ¬ nonzeroAddress c.payTo ∨
      ¬ nonzeroAddress c.refundTo ∨ c.payTo = c.refundTo ∨ c.total = 0 ∨ c.deadline = 0 ∨
      c.fuelReserve = 0 ∨ (∃ i ∈ firstIndices maxMilestones c.count.toNat, c.amounts i = 0) ∨
      ∃ i : Fin maxMilestones, c.count.toNat ≤ i.val ∧ c.amounts i ≠ 0) ∧
    sum c.amounts = some c.total := by
  have hcount : c.count.toNat = 0 ↔ c.count = 0 := by
    rw [← BitVec.toNat_inj]
    rfl
  rw [sum_eq_some, hcount]
  push Not
  simp only [mem_firstIndices]
  constructor
  · intro h
    exact ⟨⟨h.count_ne_zero, h.count_le, h.owner_ne_zero, h.worker_ne_zero, h.owner_ne_worker,
      h.payTo_ne_zero, h.refundTo_ne_zero, h.payTo_ne_refundTo, h.total_ne_zero, h.deadline_ne_zero,
      h.fuelReserve_ne_zero, h.amount_ne_zero, fun i hi => h.idle i (Nat.not_lt.mpr hi)⟩, h.total_eq⟩
  · rintro ⟨⟨hcount, hle, howner, hworker, hne, hpay, hrefund, hto, htotal, hdeadline, hfuel, hamount,
      hidle⟩, hsum⟩
    exact ⟨hcount, hle, howner, hworker, hne, hpay, hrefund, hto, htotal, hdeadline, hfuel, hamount,
      fun i hi => hidle i (Nat.not_lt.mp hi), hsum⟩

/-- **Decoding a configuration.** -/
theorem decode_ok_iff [Target] {b : Bytes} : decode b = .ok c ↔ c.encode = b ∧ c.Valid := by
  by_cases hlen : b.length = configBytes
  · have hsmall : b.length < 2 ^ 32 := by rw [hlen]; decide
    have hfits {o n : ℕ} (h : o + n ≤ configBytes) : o + n ≤ b.length := by
      rw [hlen]
      exact h
    have hamount (i : Fin maxMilestones) {x : U128} :
        wordAt errArgs 128 b (216 + i.val * 16) = .ok x ↔
          toLe x = b.extract (216 + i.val * 16) (216 + i.val * 16 + 16) := by
      have hi : i.val < 8 := i.isLt
      exact wordAt_ok_iff hsmall (by decide) (hfits (by unfold configBytes; omega))
    have howner {a : Bytes32} : arrayAt errArgs 32 b 0 = .ok a ↔ a.val = b.extract 0 32 :=
      arrayAt_ok_iff hsmall (hfits (by decide))
    have hworker {a : Bytes32} : arrayAt errArgs 32 b 32 = .ok a ↔ a.val = b.extract 32 64 :=
      arrayAt_ok_iff hsmall (hfits (by decide))
    have hrefund {a : AccountAddress} :
        addressAt errArgs b 64 = .ok a ↔ a.toBytes = b.extract 64 128 :=
      addressAt_ok_iff hsmall (hfits (by decide))
    have hpay {a : AccountAddress} :
        addressAt errArgs b 128 = .ok a ↔ a.toBytes = b.extract 128 192 :=
      addressAt_ok_iff hsmall (hfits (by decide))
    have htotal {x : U128} : wordAt errArgs 128 b 192 = .ok x ↔ toLe x = b.extract 192 208 :=
      wordAt_ok_iff hsmall (by decide) (hfits (by decide))
    have hdeadline {x : U32} : wordAt errArgs 32 b 208 = .ok x ↔ toLe x = b.extract 208 212 :=
      wordAt_ok_iff hsmall (by decide) (hfits (by decide))
    have hfuel {x : U128} : wordAt errArgs 128 b 344 = .ok x ↔ toLe x = b.extract 344 360 :=
      wordAt_ok_iff hsmall (by decide) (hfits (by decide))
    rw [encode_eq_iff hlen, valid_iff]
    unfold decode
    simp only [bind_ok_iff, failIf_ok_iff, exists_const, pure_ok_iff, tabulateM_ok_iff, hamount,
      howner, hworker, hrefund, hpay, htotal, hdeadline, hfuel]
    constructor
    · rintro ⟨hform, amounts, h9, owner, h1, worker, h2, refundTo, h3, payTo, h4, total, h5,
        deadline, h6, fuelReserve, h10, hguard, hsum, rfl⟩
      push Not at hform
      exact ⟨⟨h1, h2, h3, h4, h5, h6, rfl, hform.2.symm, h9, h10⟩, hguard, not_not.mp hsum⟩
    · rintro ⟨⟨h1, h2, h3, h4, h5, h6, h7, h8, h9, h10⟩, hguard, hsum⟩
      refine ⟨?_, c.amounts, h9, c.owner, h1, c.worker, h2, c.refundTo, h3, c.payTo, h4, c.total, h5,
        c.deadline, h6, c.fuelReserve, h10, ?_⟩
      · push Not
        exact ⟨hlen, h8.symm⟩
      · rw [← h7]
        exact ⟨hguard, not_not.mpr hsum, rfl⟩
  · have hno : c.encode ≠ b := fun h => hlen (h ▸ length_encode c)
    simp only [decode, hlen, ne_eq, not_false_eq_true, true_or, bind_ok_iff, failIf_ok_iff,
      not_true_eq_false, false_and, exists_false, hno]

/-- Decoding a configuration raises one error. -/
theorem raises_decode [Target] {E : U32 → Prop} {b : Bytes} (h : E errArgs) :
    Raises (decode b) E := by
  unfold decode
  refine (raises_failIf fun _ => h).bind fun _ _ => ?_
  refine (raises_tabulateM fun _ => raises_wordAt h).bind fun _ _ => ?_
  refine (raises_arrayAt h).bind fun _ _ => (raises_arrayAt h).bind fun _ _ => ?_
  refine (raises_addressAt h).bind fun _ _ => (raises_addressAt h).bind fun _ _ => ?_
  refine (raises_wordAt h).bind fun _ _ => (raises_wordAt h).bind fun _ _ => ?_
  refine (raises_wordAt h).bind fun _ _ => (raises_failIf fun _ => h).bind fun _ _ => ?_
  exact (raises_failIf fun _ => h).bind fun _ _ => raises_pure _

end Config

end AvmSdk.Escrow
