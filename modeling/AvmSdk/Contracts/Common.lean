import AvmSdk.Sdk.Account
import AvmSdk.Sdk.Output.EventFields
import AvmSdk.Shares.Proportion
import AvmSdk.Wire.Layout
import AvmSdk.Wire.Patch
import AvmSdk.Wire.Tally

/-!
# What the contracts share

The helper functions that the example contracts repeat, each with its own error code: reading fields
out of a byte string, looking up the principal currency, the part of an amount. The code is a
parameter here; every contract instantiates it.

* `arrayAt_ok_iff`, `wordAt_ok_iff`, `addressAt_ok_iff`: inside a byte string a field is read
  exactly as it stands there.
* `amountOf_principal`: on a well-formed list the principal is the whole amount of its currency.
* `checkedShare_eq_some`: the word computation of a part is exact and never overflows.
* `announced`, `Transfer.emitted`: the answers that the contracts give.
-/

namespace AvmSdk.Contracts

open Wire Sdk

/-- The synthetic principal, ECC0. Every example chooses the same id.
Source: `PRINCIPAL_CURRENCY_ID` -/
def principalCurrencyId : U32 := 0

/-- Source: `SHELL_CURRENCY_ID` -/
def shellCurrencyId : U32 := 2

/-- The codes that a contract may report: those below are reserved. -/
def ErrorCode (e : U32) : Prop := 1000 ≤ e.toNat

instance : DecidablePred ErrorCode := fun e => Nat.decLe 1000 e.toNat

/-- No error code stands for a success. -/
theorem ErrorCode.ne_zero {e : U32} (h : ErrorCode e) : e ≠ 0 := by
  rintro rfl
  exact absurd h (Nat.not_succ_le_zero 999)

/-- The constants of the contracts are error codes. -/
theorem errorCode {e : U32} (h : decide (ErrorCode e) = true) : ErrorCode e := of_decide_eq_true h

/-- What ends with an error code does not end with zero. -/
theorem raises_ne_zero {α : Type} {x : Except U32 α} (h : Raises x ErrorCode) : Raises x (· ≠ 0) :=
  h.imp fun _ => ErrorCode.ne_zero

section

variable [Target]

/-- The field of `n` bytes at an offset. Source: `array` -/
def arrayAt (e : U32) (n : ℕ) (b : Bytes) (offset : ℕ) : Except U32 (BytesN n) := do
  let stop ← okOr (checkedAdd offset n) e
  okOr ((getRange b offset stop).bind (tryIntoArray n)) e

/-- The word of `w` bits at an offset. Source: `u128_at`, `u64_at`, `u32_at`, `read_u128` -/
def wordAt (e : U32) (w : ℕ) (b : Bytes) (o : ℕ) : Except U32 (BitVec w) := do
  let part ← arrayAt e (w / 8) b o
  pure (ofLe w part.val)

/-- Source: `address_at`, `read_address` -/
def addressAt (e : U32) (b : Bytes) (o : ℕ) : Except U32 AccountAddress := do
  let dappId ← arrayAt e 32 b o
  let accountId ← arrayAt e 32 b (o + 32)
  pure ⟨dappId, accountId⟩

/-- Source: `principal`, and `principal_balance` of the vesting crate -/
def principal (extra : CurrencyAmounts) : U128 :=
  ((extra.items.find? (·.currencyId = principalCurrencyId)).map CurrencyAmount.amount).getD 0

end

/-- Source: `nonzero_address` -/
def nonzeroAddress (a : AccountAddress) : Prop := a.dappId ≠ zeros 32 ∧ a.accountId ≠ zeros 32

instance (a : AccountAddress) : Decidable (nonzeroAddress a) :=
  inferInstanceAs (Decidable (_ ∧ _))

/-- Source: `zero_address` -/
def zeroAddress : AccountAddress := ⟨zeros 32, zeros 32⟩

/-- Source: `no_body`, and `empty` of the escrow -/
def noBody (e : U32) (b : Bytes) : Except U32 Unit := failIf (b ≠ []) e

/-- The part `w / d` of an amount, by quotient and remainder.
Source: `entitlement` of the hub, `vested` of the vesting crate -/
def checkedShare (d total w : U128) : Option U128 := do
  let whole ← wordCheckedMul (total / d) w
  wordCheckedAdd whole (total % d * w / d)

/-- The answer that stores a state and reports one event. -/
def announced (state : Bytes) (event : EventIntent) : MessageOutput :=
  { MessageOutput.success (.fullReplace state) with eventIntents := [event] }

/-- One outbound message with a requested callback. -/
structure Transfer where
  /-- The message. -/
  intent : OutboundIntent
  /-- The method that takes the callback. -/
  handler : U64

/-- The answer with a transfer pushed to it. -/
def Transfer.emitted (transfer : Transfer) (output : MessageOutput) : MessageOutput :=
  { output with
    outboundIntents := output.outboundIntents ++ [transfer.intent]
    callbackIntents := output.callbackIntents ++ [⟨0, transfer.handler⟩] }

/-- The answer of an accepted call: a stored state, an event and perhaps a transfer. -/
def answer (state : Bytes) (event : EventIntent) (transfer : Option Transfer) : MessageOutput :=
  transfer.elim (announced state event) fun transfer => transfer.emitted (announced state event)

/-- A message from outside that asks for a method, with the key that signed it. -/
structure Asks (input : MessageInput) (method : U64) (actor : Bytes32) : Prop where
  not_callback : ¬ input.message.isCallback
  caller : input.caller = .external actor
  method_eq : input.message.methodId = method

/-- A callback message of an account, with its header. -/
structure Returns (input : MessageInput) (source : AccountAddress) (message : InternalMessage)
    (h : CallbackHeader) : Prop where
  is_callback : input.message.isCallback
  caller : input.caller = .internal source
  message_eq : input.message = .internal message
  header : message.callback = some h

/-- The output of a message handler. Source: `unwrap_or_else(MessageOutput::failure)` -/
def orFailure (result : Except U32 MessageOutput) : MessageOutput :=
  match result with
  | .ok output => output
  | .error e => MessageOutput.failure e

/-! ## Answers -/

/-- A success is the answer, -/
@[simp] theorem orFailure_ok (output : MessageOutput) : orFailure (.ok output) = output := rfl

/-- and an error is a failure with its code. -/
@[simp] theorem orFailure_error (e : U32) :
    orFailure (.error e) = MessageOutput.failure e := rfl

/-- If no error is zero, a handler that reports success has succeeded. -/
theorem exists_ok_of_statusCode {result : Except U32 MessageOutput} (h : Raises result (· ≠ 0))
    (hstatus : (orFailure result).statusCode = 0) : ∃ output, result = .ok output := by
  cases result with
  | ok output => exact ⟨output, rfl⟩
  | error e => exact absurd hstatus (h e rfl)

/-- What a handler that reports success has computed is its output. -/
theorem exists_output_of_statusCode {result : Except U32 MessageOutput}
    (h : Raises result (· ≠ 0)) (hstatus : (orFailure result).statusCode = 0) :
    ∃ output, result = .ok output ∧ orFailure result = output := by
  obtain ⟨output, hok⟩ := exists_ok_of_statusCode h hstatus
  exact ⟨output, hok, by rw [hok, orFailure_ok]⟩

/-- The status code of a handler whose answers report success. -/
theorem statusCode_orFailure {result : Except U32 MessageOutput} {P : U32 → Prop}
    (hok : ∀ out, result = .ok out → out.statusCode = 0) (hzero : P 0) (herror : Raises result P) :
    P (orFailure result).statusCode := by
  cases result with
  | ok out =>
      rw [orFailure_ok, hok out rfl]
      exact hzero
  | error e => exact herror e rfl

/-- Without a transfer the event is announced, -/
@[simp] theorem answer_none (state : Bytes) (event : EventIntent) :
    answer state event none = announced state event := rfl

/-- and with one the transfer goes out too. -/
@[simp] theorem answer_some (state : Bytes) (event : EventIntent) (transfer : Transfer) :
    answer state event (some transfer) = transfer.emitted (announced state event) := rfl

/-- An answer is a success, -/
@[simp] theorem statusCode_answer (state : Bytes) (event : EventIntent)
    (transfer : Option Transfer) : (answer state event transfer).statusCode = 0 := by
  cases transfer <;> rfl

/-- replaces the state, -/
@[simp] theorem nextState_answer (state old : Bytes) (event : EventIntent)
    (transfer : Option Transfer) : (answer state event transfer).nextState old = state := by
  cases transfer <;> rfl

/-- asks for the callback of its transfer, -/
@[simp] theorem callbackIntents_answer (state : Bytes) (event : EventIntent)
    (transfer : Option Transfer) : (answer state event transfer).callbackIntents =
      (transfer.map fun transfer => CallbackIntent.mk 0 transfer.handler).toList := by
  cases transfer <;> rfl

/-- and sends its transfer. -/
@[simp] theorem outboundIntents_answer (state : Bytes) (event : EventIntent)
    (transfer : Option Transfer) :
    (answer state event transfer).outboundIntents = (transfer.map Transfer.intent).toList := by
  cases transfer <;> rfl

/-! ## Totals -/

/-- A sum that cannot be formed is too large. -/
theorem le_of_wordCheckedAdd_none {w : ℕ} {a b : BitVec w} (h : wordCheckedAdd a b = none) :
    2 ^ w ≤ a.toNat + b.toNat := by
  by_contra hlt
  rw [wordCheckedAdd_of_lt (Nat.not_le.mp hlt)] at h
  exact absurd h nofun

/-- A sum that overflows or exceeds a balance is not covered.
Source: `checked_add(..).is_none_or(|v| v > ..)` -/
theorem covered_iff {w : ℕ} {x y p : BitVec w} :
    ¬ (wordCheckedAdd x y).all (fun v => decide (p < v)) = true ↔
      x.toNat + y.toNat ≤ p.toNat := by
  have hp := p.isLt
  by_cases h : x.toNat + y.toNat < 2 ^ w
  · rw [wordCheckedAdd_of_lt h, Option.all_some, decide_eq_true_iff, BitVec.not_lt, BitVec.le_def,
      BitVec.toNat_add_of_lt h]
  · rw [wordCheckedAdd, if_neg h, Option.all_none]
    exact ⟨fun hno => absurd rfl hno, fun hle => absurd hle (by omega)⟩

/-- Every number that a word bounds is a word. -/
theorem exists_word_of_le {w m : ℕ} {x : BitVec w} (h : m ≤ x.toNat) : ∃ y : BitVec w, y.toNat = m := by
  have := x.isLt
  exact ⟨BitVec.ofNat w m, by rw [BitVec.toNat_ofNat, Nat.mod_eq_of_lt (by omega)]⟩

/-- **A checked total of words** over a list. -/
theorem foldlM_word_iff {ε α : Type} {w : ℕ} {P : α → Prop} {f : α → ℕ}
    {step : BitVec w → α → Except ε (BitVec w)}
    (hstep : ∀ t a u, step t a = .ok u ↔ P a ∧ u.toNat = t.toNat + f a) (as : List α)
    {u : BitVec w} : as.foldlM step 0 = .ok u ↔ (∀ a ∈ as, P a) ∧ u.toNat = (as.map f).sum := by
  apply foldlM_total_zero_iff (tallies_toNat w) hstep
  exact BitVec.toNat_zero

/-- A checked total without checks of its own. -/
theorem foldlM_add_iff {ε α : Type} {w : ℕ} {e : ε} (f : α → BitVec w) (as : List α)
    {u : BitVec w} :
    as.foldlM (fun v a => okOr (wordCheckedAdd v (f a)) e) 0 = .ok u ↔
      u.toNat = (as.map fun a => (f a).toNat).sum := by
  have hstep : ∀ (t : BitVec w) (a : α) (u : BitVec w),
      okOr (wordCheckedAdd t (f a)) e = .ok u ↔ True ∧ u.toNat = t.toNat + (f a).toNat := by
    intro t a u
    rw [okOr_ok_iff, wordCheckedAdd_eq_some, true_and, eq_comm]
  rw [foldlM_word_iff hstep]
  simp

/-- A checked total without an error of its own. Source: `try_fold(0, |a, b| a.checked_add(*b))` -/
theorem foldlM_checkedAdd_eq_some {α : Type} {w : ℕ} (f : α → BitVec w) (as : List α)
    {t u : BitVec w} :
    as.foldlM (fun v a => wordCheckedAdd v (f a)) t = some u ↔
      u.toNat = t.toNat + (as.map fun a => (f a).toNat).sum := by
  induction as generalizing t with
  | nil =>
      simp only [List.foldlM_nil, Option.pure_def, Option.some.injEq, List.map_nil, List.sum_nil,
        Nat.add_zero, ← BitVec.toNat_inj]
      exact eq_comm
  | cons a as ih =>
      simp only [List.foldlM_cons, Option.bind_eq_bind, Option.bind_eq_some_iff,
        wordCheckedAdd_eq_some, ih, List.map_cons, List.sum_cons]
      constructor
      · rintro ⟨v, hv, hu⟩
        omega
      · intro hu
        obtain ⟨v, hv⟩ := exists_word_of_le (x := u) (m := t.toNat + (f a).toNat) (by omega)
        exact ⟨v, hv.symm, by omega⟩

/-! ## Parts of an amount -/

open Shares in
/-- **The word computation** of a part gives the part, if the whole is small enough for the product
of a remainder and the weight. -/
theorem checkedShare_eq_some {d total w v : U128} (hd : 0 < d.toNat) (hw : w.toNat ≤ d.toNat)
    (hsmall : d.toNat * d.toNat < 2 ^ 128) :
    checkedShare d total w = some v ↔ v.toNat = share d.toNat total.toNat w.toNat := by
  have hbelow := below_of_lt hd hw total.isLt hsmall.le
  have hrest : (total % d * w / d).toNat = total.toNat % d.toNat * w.toNat / d.toNat := by
    rw [BitVec.toNat_udiv, BitVec.toNat_mul, BitVec.toNat_umod, Nat.mod_eq_of_lt hbelow.product]
  rw [share_eq_quotient_remainder hd]
  unfold checkedShare
  simp only [Option.bind_eq_bind, Option.bind_eq_some_iff, wordCheckedMul_eq_some,
    wordCheckedAdd_eq_some, BitVec.toNat_udiv, hrest]
  constructor
  · rintro ⟨whole, hwhole, hv⟩
    rw [← hv, hwhole]
  · intro hv
    refine ⟨BitVec.ofNat 128 (total.toNat / d.toNat * w.toNat), ?_, ?_⟩
    · rw [BitVec.toNat_ofNat, Nat.mod_eq_of_lt hbelow.whole]
    · rw [BitVec.toNat_ofNat, Nat.mod_eq_of_lt hbelow.whole, hv]

/-! ## Fields -/

section

variable [Target] {e : U32} {b : Bytes}

/-- A byte string shorter than 4 GiB, and an offset with room behind it. -/
theorem checkedAdd_of_le {o n : ℕ} (h : o + n ≤ b.length) (hb : b.length < 2 ^ 32) :
    checkedAdd o n = some (o + n) := by
  have := Target.u32_le_usizeMax
  rw [checkedAdd_eq_some]
  exact ⟨by omega, rfl⟩

/-- The array that is read is the one that stands there, -/
theorem arrayAt_ok_iff {n o : ℕ} (hb : b.length < 2 ^ 32) (h : o + n ≤ b.length) {a : BytesN n} :
    arrayAt e n b o = .ok a ↔ a.val = b.extract o (o + n) := by
  have hget : getRange b o (o + n) = some (b.extract o (o + n)) :=
    getRange_eq_some.mpr ⟨⟨Nat.le_add_right o n, h⟩, rfl⟩
  simp only [arrayAt, checkedAdd_of_le h hb, okOr_some, ok_bind, hget, Option.bind_some,
    okOr_ok_iff, tryIntoArray_eq_some]
  exact eq_comm

/-- so is the word, -/
theorem wordAt_ok_iff {w o : ℕ} (hb : b.length < 2 ^ 32) (hw : 8 ∣ w) (h : o + w / 8 ≤ b.length)
    {x : BitVec w} : wordAt e w b o = .ok x ↔ toLe x = b.extract o (o + w / 8) := by
  simp only [wordAt, bind_ok_iff, pure_ok_iff, arrayAt_ok_iff hb h]
  constructor
  · rintro ⟨a, ha, rfl⟩
    rw [toLe_ofLe (by rw [a.property, Nat.mul_div_cancel' hw]), ha]
  · intro hx
    exact ⟨⟨toLe x, length_toLe x⟩, hx, ofLe_toLe hw x⟩

/-- and so is the address. -/
theorem addressAt_ok_iff {o : ℕ} (hb : b.length < 2 ^ 32) (h : o + 64 ≤ b.length)
    {a : AccountAddress} : addressAt e b o = .ok a ↔ a.toBytes = b.extract o (o + 64) := by
  have hsplit := extract_append_extract (p := o) (q := o + 32) (r := o + 32 + 32) (by omega)
    (by omega) b
  simp only [addressAt, bind_ok_iff, pure_ok_iff, arrayAt_ok_iff hb (show o + 32 ≤ b.length by omega),
    arrayAt_ok_iff hb (show o + 32 + 32 ≤ b.length by omega)]
  rw [AccountAddress.toBytes, show o + 64 = o + 32 + 32 from rfl, ← hsplit]
  constructor
  · rintro ⟨dapp, hdapp, account, haccount, rfl⟩
    rw [← hdapp, ← haccount]
  · intro ha
    obtain ⟨hdapp, haccount⟩ := List.append_inj ha
      (by rw [a.dappId.property, length_extract_of_le (by omega)]; omega)
    exact ⟨a.dappId, hdapp, a.accountId, haccount, rfl⟩

/-- A word that stands at an offset is read there. -/
theorem wordAt_of_standsAt {w o : ℕ} (hb : b.length < 2 ^ 32) (hw : 8 ∣ w) {x : BitVec w}
    (h : StandsAt b o (toLe x)) : wordAt e w b o = .ok x := by
  obtain ⟨hfits, hread⟩ := h
  rw [length_toLe] at hfits hread
  exact (wordAt_ok_iff hb hw hfits).mpr hread.symm

/-- An address that stands at an offset is read there. -/
theorem addressAt_of_standsAt {o : ℕ} (hb : b.length < 2 ^ 32) {a : AccountAddress}
    (h : StandsAt b o a.toBytes) : addressAt e b o = .ok a := by
  obtain ⟨hfits, hread⟩ := h
  rw [AccountAddress.length_toBytes] at hfits hread
  exact (addressAt_ok_iff hb hfits).mpr hread.symm

/-- Reading a field raises the one error that it was given. -/
theorem raises_arrayAt {E : U32 → Prop} {n o : ℕ} (h : E e) : Raises (arrayAt e n b o) E :=
  (raises_okOr fun _ => h).bind fun _ _ => raises_okOr fun _ => h

/-- Reading a word raises the error it is given, -/
theorem raises_wordAt {E : U32 → Prop} {w o : ℕ} (h : E e) : Raises (wordAt e w b o) E :=
  (raises_arrayAt h).bind fun _ _ => raises_pure _

/-- and so does reading an address. -/
theorem raises_addressAt {E : U32 → Prop} {o : ℕ} (h : E e) : Raises (addressAt e b o) E :=
  (raises_arrayAt h).bind fun _ _ => (raises_arrayAt h).bind fun _ _ => raises_pure _

omit [Target] in
/-- A body is refused unless it is empty. -/
@[simp] theorem noBody_ok_iff {u : Unit} : noBody e b = .ok u ↔ b = [] := by
  rw [noBody, failIf_ok_iff, not_not]

omit [Target] in
/-- A flag byte that passed its test is the flag. -/
theorem flag_eq_iff {flag : Bool} {x : U8} :
    (if flag then 1 else 0) = x ↔ ¬ 1 < x ∧ decide (x = 1) = flag := by
  have hone : x = 1 ↔ x.toNat = 1 := by
    rw [← BitVec.toNat_inj]
    rfl
  have hzero : 0 = x ↔ x.toNat = 0 := by
    rw [← BitVec.toNat_inj, eq_comm]
    rfl
  have hlt : 1 < x ↔ 1 < x.toNat := BitVec.lt_def
  cases flag with
  | false =>
      rw [decide_eq_false_iff_not, hone, hlt]
      exact hzero.trans (by omega)
  | true =>
      rw [decide_eq_true_iff, if_pos rfl, eq_comm, hlt, hone]
      omega

/-! ## The principal -/

/-- **The principal** of a well-formed list is the amount of ECC0 in it. -/
theorem amountOf_principal {extra : CurrencyAmounts} (h : extra.WellFormed) :
    amountOf principalCurrencyId extra.items = (principal extra).toNat := by
  rw [CurrencyAmounts.amountOf_eq h, principal]
  cases extra.items.find? (·.currencyId = principalCurrencyId) <;> rfl

/-- What the message of a well-formed call brings in principal. -/
theorem attached_principal {c : Call} (h : c.input.WellFormed) :
    c.attached principalCurrencyId = (principal c.input.message.extra).toNat :=
  amountOf_principal h.message_ok.extra_ok

end

end AvmSdk.Contracts
