import AvmSdk.Contracts.Common
import AvmSdk.Shares.Schedule

/-!
# Vesting streams: what the contracts share

The crate `vesting-streams/core`: error codes, method ids, the vested part of an amount and the body
of a payment.

* `Timed`, `vested_ok_iff`: a schedule is accepted by its times alone, and then the vested part is
  what the schedule releases. `vested_exact`: all of it in numbers.
* `principalValue_eq_some`: the messages that carry the principal and nothing else.
* `readPayment_ok_iff`: a payment body is read back exactly.
-/

namespace AvmSdk.Vesting

open Wire Sdk Contracts Shares

/-- Source: `ResultCode` -/
abbrev ResultCode (α : Type) := Except U32 α

/-! ## Constants -/

/-- Source: `MAX_STREAMS` -/
abbrev maxStreams : ℕ := 8

/-- A stream has two lanes, 0 to pay out and 1 to refund. -/
scoped instance twoLanes : NeZero 2 := ⟨Nat.succ_ne_zero 1⟩

/-- Source: `E_ARGS` -/
def eArgs : U32 := 4000
/-- Source: `E_AUTH` -/
def eAuth : U32 := 4001
/-- Source: `E_STATE` -/
def eState : U32 := 4002
/-- Source: `E_VALUE` -/
def eValue : U32 := 4003
/-- Source: `E_PHASE` -/
def ePhase : U32 := 4004
/-- Source: `E_EMPTY` -/
def eEmpty : U32 := 4005
/-- Source: `E_BUSY` -/
def eBusy : U32 := 4006
/-- Source: `E_CALLBACK` -/
def eCallback : U32 := 4007
/-- Source: `E_OVERFLOW` -/
def eOverflow : U32 := 4008
/-- Source: `E_BALANCE` -/
def eBalance : U32 := 4009
/-- Source: `E_IRREVOCABLE` -/
def eIrrevocable : U32 := 4010

namespace Ids

/-- Source: `ids::FUND` -/
def fund : U64 := 0x21a7a770a198334c
/-- Source: `ids::CLAIM` -/
def claim : U64 := 0x670d5504a402c5a0
/-- Source: `ids::CANCEL` -/
def cancel : U64 := 0x52a8b019669a89ed
/-- Source: `ids::REFUND` -/
def refund : U64 := 0x9b5d16b61097135d
/-- Source: `ids::CALLBACK` -/
def callback : U64 := 0xd71c9b61d009c1b2
/-- Source: `ids::STATUS` -/
def status : U64 := 0xd47305678521c1bc
/-- Source: `ids::TOPUP` -/
def topup : U64 := 0xf0929ae1e1dda9f2
/-- Source: `ids::RECEIVE` -/
def receive : U64 := 0xf332e40c80382ec6
/-- Source: `ids::BIND` -/
def bind : U64 := 0x00b2b020c4a87d26
/-- Source: `ids::REJECT` -/
def reject : U64 := 0x6df484c38c9bb260
/-- Source: `ids::RECEIVER_STATUS` -/
def receiverStatus : U64 := 0x5ba55ef8f7d7c531
/-- Source: `ids::EVENT_CREATED` -/
def eventCreated : U64 := 0x4e6ebdf86f685bc9
/-- Source: `ids::EVENT_FUNDED` -/
def eventFunded : U64 := 0x33b5b198196b8278
/-- Source: `ids::EVENT_CANCELLED` -/
def eventCancelled : U64 := 0xfd284c3c5aa8193c
/-- Source: `ids::EVENT_PENDING` -/
def eventPending : U64 := 0x2b7a0dcb51315ea9
/-- Source: `ids::EVENT_SETTLED` -/
def eventSettled : U64 := 0xc5dfb59bad943ad1
/-- Source: `ids::EVENT_FAILED` -/
def eventFailed : U64 := 0x2df3fa69159644d7
/-- Source: `ids::EVENT_STATUS` -/
def eventStatus : U64 := 0x957ae59607367bf5
/-- Source: `ids::EVENT_FEES` -/
def eventFees : U64 := 0x85dc9e806193f2df

end Ids

/-! ## Definitions -/

/-- Source: `principal_value` -/
def principalValue [Target] (extra : CurrencyAmounts) : Option U128 :=
  if extra.len ≠ 1 then none
  else (extra.items.head?.filter (·.currencyId = principalCurrencyId)).map CurrencyAmount.amount

/-- The parameter `endTime` is `end` of the source. Source: `vested` -/
def vested (total : U128) (start cliff endTime step now : U32) : ResultCode U128 := do
  failIf (total = 0 ∨ start = 0 ∨ endTime ≤ start ∨ cliff < start ∨ endTime < cliff ∨
    endTime - start < step) eArgs
  if now < cliff ∨ now ≤ start then pure 0
  else if endTime ≤ now then pure total
  else
    let duration : U128 := (endTime - start).zeroExtend 128
    let elapsed := now - start
    let elapsed : U128 := ((wordCheckedDiv elapsed step).elim elapsed (· * step)).zeroExtend 128
    okOr (checkedShare duration total elapsed) eOverflow

/-- Source: `payment_body` -/
def paymentBody (index kind : U8) (nonce : U64) (amount : U128) : Bytes :=
  index :: kind :: (toLe nonce ++ toLe amount)

/-- Source: `read_payment` -/
def readPayment [Target] (b : Bytes) : ResultCode (ℕ × ℕ × U64 × U128) := do
  failIf (b.length ≠ 26 ∨ maxStreams ≤ (b.getD 0 0).toNat ∨ 1 < b.getD 1 0) eArgs
  let nonce ← wordAt eArgs 64 b 2
  let amount ← wordAt eArgs 128 b 10
  failIf (nonce = 0 ∨ amount = 0) eArgs
  pure ((b.getD 0 0).toNat, (b.getD 1 0).toNat, nonce, amount)

/-! ## Vested parts -/

/-- The times of a stream as a schedule. -/
def schedule (start cliff endTime step : U32) : Schedule :=
  ⟨start.toNat, cliff.toNat, endTime.toNat, step.toNat⟩

/-- An amount and times that make a schedule. -/
structure Timed (total : U128) (start cliff endTime step : U32) : Prop where
  total_ne_zero : total ≠ 0
  start_ne_zero : start ≠ 0
  start_lt : start < endTime
  start_le_cliff : start ≤ cliff
  cliff_le : cliff ≤ endTime
  step_le : step ≤ endTime - start

section

variable {total : U128} {start cliff endTime step now : U32}

/-- What the checks of a schedule leave. -/
theorem not_rejected_iff :
    ¬ (total = 0 ∨ start = 0 ∨ endTime ≤ start ∨ cliff < start ∨ endTime < cliff ∨
      endTime - start < step) ↔ Timed total start cliff endTime step := by
  simp only [not_or, BitVec.not_le, BitVec.not_lt]
  constructor
  · rintro ⟨htotal, hstart, hlt, hcliff, hle, hstep⟩
    exact ⟨htotal, hstart, hlt, hcliff, hle, hstep⟩
  · intro h
    exact ⟨h.total_ne_zero, h.start_ne_zero, h.start_lt, h.start_le_cliff, h.cliff_le, h.step_le⟩

/-- The time that counts, in the words of the code. -/
theorem toNat_wholeSteps (elapsed step : U32) :
    ((wordCheckedDiv elapsed step).elim elapsed (· * step)).toNat =
      wholeSteps step.toNat elapsed.toNat := by
  unfold wordCheckedDiv wholeSteps
  have hzero : step = 0 ↔ step.toNat = 0 := by
    rw [← BitVec.toNat_inj]
    rfl
  by_cases h : step = 0
  · rw [if_pos h, if_pos (hzero.mp h)]
    rfl
  · have hlt : elapsed.toNat / step.toNat * step.toNat < 2 ^ 32 :=
      (Nat.div_mul_le_self _ _).trans_lt elapsed.isLt
    rw [if_neg h, if_neg (hzero.not.mp h), Option.elim_some, BitVec.toNat_mul, BitVec.toNat_udiv,
      Nat.mod_eq_of_lt hlt]

/-- The part of a running schedule, in the words of the code. -/
theorem checkedShare_running (hstart : start ≤ now) (hrunning : now < endTime) {v : U128} :
    checkedShare ((endTime - start).zeroExtend 128) total
        (((wordCheckedDiv (now - start) step).elim (now - start) (· * step)).zeroExtend 128) =
          some v ↔
      v.toNat = share (endTime.toNat - start.toNat) total.toNat
        (wholeSteps step.toNat (now.toNat - start.toNat)) := by
  rw [BitVec.le_def] at hstart
  rw [BitVec.lt_def] at hrunning
  have hend := endTime.isLt
  have hsteps := wholeSteps_le step.toNat (now.toNat - start.toNat)
  have hduration : ((endTime - start).zeroExtend 128).toNat = endTime.toNat - start.toNat := by
    rw [BitVec.toNat_setWidth, BitVec.toNat_sub_of_le (BitVec.le_def.mpr (by omega)),
      Nat.mod_eq_of_lt (by omega)]
  have hweight : (((wordCheckedDiv (now - start) step).elim (now - start)
      (· * step)).zeroExtend 128).toNat =
        wholeSteps step.toNat (now.toNat - start.toNat) := by
    rw [BitVec.toNat_setWidth, toNat_wholeSteps,
      BitVec.toNat_sub_of_le (BitVec.le_def.mpr hstart), Nat.mod_eq_of_lt (by omega)]
  have hsmall : (endTime.toNat - start.toNat) * (endTime.toNat - start.toNat) < 2 ^ 128 := by
    calc (endTime.toNat - start.toNat) * (endTime.toNat - start.toNat)
        ≤ 2 ^ 32 * 2 ^ 32 := Nat.mul_le_mul (by omega) (by omega)
      _ < 2 ^ 128 := by decide
  rw [checkedShare_eq_some (by rw [hduration]; omega) (by rw [hduration, hweight]; omega)
    (by rw [hduration]; exact hsmall), hduration, hweight]

/-- **The vested part** of an amount is what its schedule releases. -/
theorem vested_ok_iff {v : U128} : vested total start cliff endTime step now = .ok v ↔
    Timed total start cliff endTime step ∧
      v.toNat = (schedule start cliff endTime step).released total.toNat now.toNat := by
  simp only [vested, bind_ok_iff, failIf_ok_iff, exists_const, not_rejected_iff]
  refine and_congr_right fun h => ?_
  have hearly : now < cliff ∨ now ≤ start ↔
      now.toNat < cliff.toNat ∨ now.toNat ≤ start.toNat := by
    rw [BitVec.lt_def, BitVec.le_def]
  have hlate : endTime ≤ now ↔ endTime.toNat ≤ now.toNat := BitVec.le_def
  unfold Schedule.released schedule
  dsimp only
  by_cases hnothing : now < cliff ∨ now ≤ start
  · rw [if_pos hnothing, if_pos (hearly.mp hnothing), pure_ok_iff, ← BitVec.toNat_inj]
    exact eq_comm
  · rw [if_neg hnothing, if_neg (hearly.not.mp hnothing)]
    by_cases hall : endTime ≤ now
    · rw [if_pos hall, if_pos (hlate.mp hall), pure_ok_iff, ← BitVec.toNat_inj]
      exact eq_comm
    · have hstart : start ≤ now := BitVec.le_of_lt (BitVec.not_le.mp (not_or.mp hnothing).2)
      rw [if_neg hall, if_neg (hlate.not.mp hall), okOr_ok_iff,
        checkedShare_running hstart (BitVec.not_le.mp hall)]

/-- A schedule that is accepted has a vested part at every time. -/
theorem exists_vested (h : Timed total start cliff endTime step) (now : U32) :
    ∃ v, vested total start cliff endTime step now = .ok v := by
  obtain ⟨v, hv⟩ := exists_word_of_le
    (Schedule.released_le (schedule start cliff endTime step) total.toNat now.toNat)
  exact ⟨v, vested_ok_iff.mpr ⟨h, hv⟩⟩

/-- The code of a rejected schedule. -/
theorem vested_eq_error (h : ¬ Timed total start cliff endTime step) (now : U32) :
    vested total start cliff endTime step now = .error eArgs := by
  rw [← not_rejected_iff, not_not] at h
  unfold vested
  rw [failIf, if_pos h]
  rfl

/-- No number on the way to a running part leaves its words. -/
theorem below_running (htotal : start < now) (hrunning : now < endTime) :
    wholeSteps step.toNat (now.toNat - start.toNat) < 2 ^ 32 ∧
      Below (2 ^ 128) (endTime.toNat - start.toNat) total.toNat
        (wholeSteps step.toNat (now.toNat - start.toNat)) := by
  rw [BitVec.lt_def] at htotal hrunning
  have hend := endTime.isLt
  have hsteps := wholeSteps_le step.toNat (now.toNat - start.toNat)
  have hsquare : (endTime.toNat - start.toNat) * (endTime.toNat - start.toNat) ≤ 2 ^ 128 := by
    calc (endTime.toNat - start.toNat) * (endTime.toNat - start.toNat)
        ≤ 2 ^ 32 * 2 ^ 32 := Nat.mul_le_mul (by omega) (by omega)
      _ ≤ 2 ^ 128 := by decide
  exact ⟨by omega, below_of_lt (by omega) (by omega) total.isLt hsquare⟩

end

/-- **The stepped schedule.** Under the conditions on the times, and only then, a part is vested at
every time: nothing before the cliff, all of it at the end, and in between the rounded part of the
whole steps. It is a part of the amount and never shrinks, and no number on the way overflows. -/
theorem vested_exact (total : U128) (start cliff endTime step : U32) :
    (Timed total start cliff endTime step →
      (∀ now, ∃ v, vested total start cliff endTime step now = .ok v ∧ v ≤ total ∧
        v.toNat = if now < cliff ∨ now ≤ start then 0
          else if endTime ≤ now then total.toNat
          else total.toNat *
            (if step = 0 then now.toNat - start.toNat
              else (now.toNat - start.toNat) / step.toNat * step.toNat) /
            (endTime.toNat - start.toNat)) ∧
      (∀ now later v v', now ≤ later → vested total start cliff endTime step now = .ok v →
        vested total start cliff endTime step later = .ok v' → v ≤ v') ∧
      ∀ now, start < now → now < endTime →
        wholeSteps step.toNat (now.toNat - start.toNat) < 2 ^ 32 ∧
          Below (2 ^ 128) (endTime.toNat - start.toNat) total.toNat
            (wholeSteps step.toNat (now.toNat - start.toNat))) ∧
    (¬ Timed total start cliff endTime step →
      ∀ now, vested total start cliff endTime step now = .error eArgs) := by
  refine ⟨fun h => ⟨fun now => ?_, fun now later v v' hle hv hv' => ?_, fun now => below_running⟩,
    vested_eq_error⟩
  · obtain ⟨v, hv⟩ := exists_vested h now
    have hvalue := (vested_ok_iff.mp hv).2
    refine ⟨v, hv, ?_, ?_⟩
    · rw [BitVec.le_def, hvalue]
      apply Schedule.released_le
    · have hzero : step = 0 ↔ step.toNat = 0 := by
        rw [← BitVec.toNat_inj]
        rfl
      have hsteps (elapsed : ℕ) : wholeSteps step.toNat elapsed =
          if step = 0 then elapsed else elapsed / step.toNat * step.toNat :=
        if_congr hzero.symm rfl rfl
      rw [hvalue, ← hsteps]
      exact if_congr (by rw [BitVec.lt_def, BitVec.le_def]; rfl) rfl
        (if_congr BitVec.le_def.symm rfl rfl)
  · have hvalue := (vested_ok_iff.mp hv).2
    have hvalue' := (vested_ok_iff.mp hv').2
    rw [BitVec.le_def, hvalue, hvalue']
    exact Schedule.released_mono _ _ (BitVec.le_def.mp hle)

/-! ## The principal -/

section

variable [Target]

/-- A list with the principal and nothing else. -/
theorem principalValue_eq_some {extra : CurrencyAmounts} (h : extra.WellFormed) {v : U128} :
    principalValue extra = some v ↔ extra.items = [⟨principalCurrencyId, v⟩] := by
  have hlen : extra.len = extra.items.length := h.items_length.symm
  unfold principalValue
  rw [hlen]
  cases hitems : extra.items with
  | nil => simp
  | cons c cs =>
      cases cs with
      | nil =>
          by_cases hid : c.currencyId = principalCurrencyId
          · simp [hid, Option.filter]
            constructor
            · rintro rfl
              rw [← hid]
            · rintro rfl
              rfl
          · simp [hid, Option.filter]
            rintro rfl
            exact hid rfl
      | cons d ds => simp

/-! ## Payment bodies -/

omit [Target] in
/-- The length of a payment. -/
@[simp] theorem length_paymentBody (index kind : U8) (nonce : U64) (amount : U128) :
    (paymentBody index kind nonce amount).length = 26 := by
  simp [paymentBody]

omit [Target] in
/-- The fields of a payment body stand at their places. -/
theorem paymentBody_eq_iff {b : Bytes} (hlen : b.length = 26) {index kind : U8} {nonce : U64}
    {amount : U128} : paymentBody index kind nonce amount = b ↔
      index = b.getD 0 0 ∧ kind = b.getD 1 0 ∧ toLe nonce = b.extract 2 10 ∧
        toLe amount = b.extract 10 26 := by
  have hparts : paymentBody index kind nonce amount =
      [[index], [kind], toLe nonce, toLe amount].flatten := by simp [paymentBody]
  have hlens : [[index], [kind], toLe nonce, toLe amount].map List.length = [1, 1, 8, 16] := by simp
  have hzero : b.extract 0 1 = [b.getD 0 0] := extract_one (by omega)
  have hone : b.extract 1 2 = [b.getD 1 0] := extract_one (by omega)
  rw [hparts, flatten_eq_iff hlens hlen]
  simp only [splitParts, List.cons.injEq, and_true, Nat.reduceAdd, hzero, hone]

/-- **A payment body** is read back exactly, if it names a lane, a nonce and an amount. -/
theorem readPayment_ok_iff {b : Bytes} {i k : ℕ} {nonce : U64} {amount : U128} :
    readPayment b = .ok (i, k, nonce, amount) ↔
      ∃ index kind : U8, index.toNat = i ∧ kind.toNat = k ∧ i < maxStreams ∧ k ≤ 1 ∧ nonce ≠ 0 ∧
        amount ≠ 0 ∧ b = paymentBody index kind nonce amount := by
  simp only [readPayment, bind_ok_iff, failIf_ok_iff, pure_ok_iff, exists_const, Prod.mk.injEq,
    not_or, not_not, not_le, BitVec.not_lt, BitVec.le_def]
  constructor
  · rintro ⟨⟨hlen, hi, hk⟩, n, hn, a, ha, ⟨hn0, ha0⟩, rfl, rfl, rfl, rfl⟩
    rw [wordAt_ok_iff (by omega) (by decide) (by omega)] at hn ha
    exact ⟨_, _, rfl, rfl, hi, hk, hn0, ha0, ((paymentBody_eq_iff hlen).mpr ⟨rfl, rfl, hn, ha⟩).symm⟩
  · rintro ⟨index, kind, rfl, rfl, hi, hk, hn0, ha0, rfl⟩
    have hlen := length_paymentBody index kind nonce amount
    obtain ⟨hindex, hkind, hn, ha⟩ := (paymentBody_eq_iff hlen).mp rfl
    rw [← hindex, ← hkind]
    refine ⟨⟨hlen, hi, hk⟩, nonce, ?_, amount, ?_, ⟨hn0, ha0⟩, rfl, rfl, rfl, rfl⟩
    · exact (wordAt_ok_iff (by omega) (by decide) (by omega)).mpr hn
    · exact (wordAt_ok_iff (by omega) (by decide) (by omega)).mpr ha

end

end AvmSdk.Vesting
