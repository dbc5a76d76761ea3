import AvmSdk.Contracts.Vesting.Step

/-!
# The vesting handler and its steps

The handler of a vesting contract succeeds on a valid state exactly when a step is possible.

* `callbackValue_none_iff`, `callbackValue_some_iff`: the currencies that a callback may bring.
* `Config.laneOf_eq_some_iff`: the lane of an account is the one that pays to it.
* `topup_ok_iff` to `callback_ok_iff`: one for each method, from its checks to the fields of `Act`.
* `process_ok`: a successful call is a step, and stores the state after it.
* `process_of_step`: every step succeeds. No check of the result stops it.
-/

namespace AvmSdk.Vesting

open Wire Sdk Contracts

/-! ## Reports -/

namespace State

variable {s : State}

/-- The sums over the streams are defined. -/
theorem Valid.exists_totals (h : s.Valid) : ∃ a b c, s.totals = .ok (a, b, c) := by
  obtain ⟨total, -, htotal⟩ := h.config.exists_total
  have hle := sum_out_le h.streams h.idle
  obtain ⟨a, ha⟩ := exists_word_of_le (x := total) (m := s.claimedSum) (by omega)
  obtain ⟨b, hb⟩ := exists_word_of_le (x := total) (m := s.refundedSum) (by omega)
  obtain ⟨c, hc⟩ := exists_word_of_le (x := total) (m := s.pendingSum) (by omega)
  exact ⟨a, b, c, (totals_ok_iff h.idle).mpr ⟨ha, hb, hc⟩⟩

/-- What is held is found in a valid state. -/
theorem Valid.exists_held (h : s.Valid) : ∃ v, s.held = .ok v ∧ v.toNat = s.heldAmount :=
  State.exists_held h.config h.streams h.idle

/-- **What is held**, in the words of the code. -/
theorem Valid.held_ok_iff (h : s.Valid) {v : U128} : s.held = .ok v ↔ v.toNat = s.heldAmount := by
  obtain ⟨held, hheld, hvalue⟩ := h.exists_held
  rw [hheld, Except.ok.injEq, ← hvalue, BitVec.toNat_inj]
  exact eq_comm

end State

section

variable [Target] {x : MessageInput} {s t : State} {o : Option Transfer} {out : MessageOutput}
  {actor : Bytes32} {eventClass : U64} {name : String} {index kind : U8} {amount : U128}
  {i : Fin maxStreams} {k : Fin 2}

omit [Target] in
/-- A finished call stores a valid state and reports one event. -/
theorem finish_inv (h : finish s eventClass name index kind amount = .ok out) :
    s.Valid ∧ ∃ e, out = announced s.encode e := by
  simp only [finish, bind_ok_iff, pure_ok_iff] at h
  obtain ⟨_, hvalid, -, -, -, -, b, -, rfl⟩ := h
  exact ⟨State.validate_ok_iff.mp hvalid, _, rfl⟩

omit [Target] in
/-- **Finishing** never fails on a valid state. -/
theorem State.Valid.exists_finish (h : s.Valid) (eventClass : U64) (name : String)
    (index kind : U8) (amount : U128) :
    ∃ e, finish s eventClass name index kind amount = .ok (announced s.encode e) := by
  obtain ⟨claimed, refunded, pending, htotals⟩ := h.exists_totals
  obtain ⟨held, hheld, -⟩ := h.exists_held
  have hvalidate : s.validate = .ok () := State.validate_ok_iff.mpr h
  have hfields : ∃ b, encodeEventFields [⟨"amount", .u128 amount⟩, ⟨"claimed", .u128 claimed⟩,
      ⟨"held", .u128 held⟩, ⟨"index", .u64 (index.zeroExtend 64)⟩,
      ⟨"kind", .u64 (kind.zeroExtend 64)⟩, ⟨"nonce", .u64 s.nonce⟩, ⟨"pending", .u128 pending⟩,
      ⟨"refunded", .u128 refunded⟩, ⟨"time", .u64 (s.lastTime.zeroExtend 64)⟩] = .ok b := by
    refine ⟨_, encodeEventFields_ok_iff.mpr ⟨?_, ?_, ?_, rfl⟩⟩
    · simp only [List.length_cons, List.length_nil]
      decide
    · simp only [List.forall_mem_cons, EventField.Fits, EventField.packed, EventValue.encoded,
        length_toLe]
      decide
    · simp only [List.map_cons, List.map_nil, EventField.packed]
      decide
  obtain ⟨b, hb⟩ := hfields
  refine ⟨⟨0, .external, eventClass, name, [], b⟩, ?_⟩
  simp only [finish, hvalidate, htotals, hheld, hb, ok_bind]
  rfl

/-! ## Methods -/

/-- When fees are taken, -/
theorem topup_ok_iff : topup x s = .ok out ↔
    TopupOk x ∧ finish s Ids.eventFees "stream.fees" 255 255 0 = .ok out := by
  simp only [topup, bind_ok_iff, noBody_ok_iff, failIf_ok_iff, exists_const]
  constructor
  · rintro ⟨hbody, hguard, hfinish⟩
    push Not at hguard
    exact ⟨⟨hbody, hguard.1, hguard.2⟩, hfinish⟩
  · rintro ⟨ok, hfinish⟩
    refine ⟨ok.body, ?_, hfinish⟩
    push Not
    exact ⟨ok.some, ok.fees⟩

omit [Target] in
/-- when the status is reported, -/
theorem status_ok_iff : status x s = .ok out ↔
    x.message.body = [] ∧ finish s Ids.eventStatus "stream.status" 255 255 0 = .ok out := by
  simp only [status, bind_ok_iff, noBody_ok_iff, exists_const]

/-- and when the streams are funded. -/
theorem fund_ok_iff (h : s.Valid) : fund x actor s = .ok out ↔ ∃ total, FundOk x actor s total ∧
    finish s.deposited Ids.eventFunded "stream.funded" 255 255 total = .ok out := by
  simp only [fund, bind_ok_iff, noBody_ok_iff, failIf_ok_iff, exists_const, not_or, not_not,
    BitVec.not_le, BitVec.not_lt, h.config.total_ok_iff]
  constructor
  · rintro ⟨hbody, howner, ⟨hfresh, hearly⟩, total, htotal, hvalue, hbalance, hfinish⟩
    exact ⟨total, ⟨hbody, howner.symm, Bool.eq_false_iff.mpr hfresh, hearly, hvalue, htotal,
      BitVec.le_def.mp hbalance⟩, hfinish⟩
  · rintro ⟨total, ok, hfinish⟩
    exact ⟨ok.body, ok.owner.symm, ⟨Bool.eq_false_iff.mp ok.fresh, ok.early⟩, total, ok.total_eq,
      ok.value, BitVec.le_def.mpr ok.balance, hfinish⟩

omit [Target] in
/-- A body of one byte that names a stream. -/
theorem streamBody_iff {body : Bytes} (hc : s.config.Valid) :
    ¬ (body.length ≠ 1 ∨ s.config.count ≤ body.getD 0 0) ∧ streamIndex (body.getD 0 0) = i ↔
      body = [BitVec.ofNat 8 i.val] ∧ s.config.Active i := by
  have hle : s.config.count.toNat ≤ 8 := hc.count_le
  constructor
  · rintro ⟨hguard, rfl⟩
    rw [not_or, not_not, BitVec.not_le, BitVec.lt_def] at hguard
    obtain ⟨hlen, hlt⟩ := hguard
    obtain ⟨b, rfl⟩ := List.length_eq_one_iff.mp hlen
    rw [List.getD_cons_zero] at hlt ⊢
    have hval : (streamIndex b).val = b.toNat :=
      Nat.mod_eq_of_lt (show b.toNat < 8 by omega)
    unfold Config.Active
    rw [hval]
    exact ⟨by simp, hlt⟩
  · rintro ⟨rfl, hi⟩
    have hlt : i.val < 8 := i.isLt
    have hval : (BitVec.ofNat 8 i.val).toNat = i.val := by
      rw [BitVec.toNat_ofNat, Nat.mod_eq_of_lt (by omega)]
    rw [not_or, not_not, BitVec.not_le, BitVec.lt_def, List.getD_cons_zero, hval]
    exact ⟨⟨rfl, hi⟩, Fin.ext ((congrArg (· % maxStreams) hval).trans (Nat.mod_eq_of_lt i.isLt))⟩

omit [Target] in
/-- When a stream is cancelled. -/
theorem cancel_ok_iff (h : s.Valid) (hi : s.config.Active i) (hfunded : s.funded = true)
    (hbody : x.message.body = [BitVec.ofNat 8 i.val]) : cancel actor s i = .ok out ↔
      ∃ cap, CancellationOk x actor s i cap ∧
        finish (s.cancelled i cap) Ids.eventCancelled "stream.cancelled" (BitVec.ofNat 8 i.val) 255
          cap = .ok out := by
  simp only [cancel, bind_ok_iff, failIf_ok_iff, exists_const, not_or, not_not, BitVec.not_le,
    Stream.earned_ok_iff (h.config.timed i hi)]
  constructor
  · rintro ⟨howner, hrevocable, ⟨hrunning, hbefore⟩, cap, hcap, hfinish⟩
    exact ⟨cap, ⟨hbody, hi, hfunded, howner.symm, Bool.not_eq_false _ ▸ hrevocable,
      Bool.eq_false_iff.mpr hrunning, hbefore, hcap⟩, hfinish⟩
  · rintro ⟨cap, ok, hfinish⟩
    refine ⟨ok.owner.symm, ?_, ⟨Bool.eq_false_iff.mp ok.running, ok.before⟩, cap, ok.cap_eq, hfinish⟩
    rw [ok.revocable]
    exact Bool.noConfusion

/-- The report of a payment. -/
def payReport (s : State) (i : Fin maxStreams) (k : Fin 2) (amount : U128) :
    ResultCode MessageOutput :=
  finish s Ids.eventPending "stream.pending" (BitVec.ofNat 8 i.val) (BitVec.ofNat 8 k.val) amount

/-- When a lane is paid. -/
theorem pay_ok_iff (h : s.Valid) (hi : s.config.Active i) (hfunded : s.funded = true)
    (hbody : x.message.body = [BitVec.ofNat 8 i.val]) : pay x s i k = .ok out ↔
      ∃ amount nonce, PayOk x (s.config.signer i k) s i k amount nonce ∧ ∃ out',
        payReport (s.locked i k amount nonce x.context.blockLt) i k amount = .ok out' ∧
        (payment s i k nonce amount).emitted out' = out := by
  simp only [pay, bind_ok_iff, failIf_ok_iff, exists_const, h.held_ok_iff, okOr_ok_iff,
    wordCheckedAdd_eq_some, pure_ok_iff]
  constructor
  · rintro ⟨hidle, amount, hdue, hsome, held, hheld, hbalance, nonce, hnonce, out', hfinish, hout⟩
    rw [not_or, BitVec.not_lt, BitVec.le_def, hheld, not_not] at hbalance
    exact ⟨amount, nonce, ⟨hbody, hi, hfunded, rfl, not_not.mp hidle, hdue, hsome, hbalance.1,
      hbalance.2, hnonce⟩, out', hfinish, hout⟩
  · rintro ⟨amount, nonce, ok, out', hfinish, hout⟩
    obtain ⟨held, -, hvalue⟩ := h.exists_held
    refine ⟨not_not.mpr ok.idle, amount, ok.due, ok.some, held, hvalue, ?_, nonce, ok.nonce_eq,
      out', hfinish, hout⟩
    rw [not_or, BitVec.not_lt, BitVec.le_def, hvalue, not_not]
    exact ⟨ok.balance, ok.fuel⟩

/-- What a method about one stream has checked before. -/
theorem manage_inv (h : s.Valid) (hok : manage x actor s = .ok out) :
    ∃ i, x.message.body = [BitVec.ofNat 8 i.val] ∧ s.config.Active i ∧ s.funded = true := by
  simp only [manage, bind_ok_iff, failIf_ok_iff, exists_const] at hok
  obtain ⟨hguard, hfunded, -⟩ := hok
  obtain ⟨hbody, hi⟩ := (streamBody_iff h.config).mp ⟨hguard, rfl⟩
  exact ⟨_, hbody, hi, (Bool.not_eq_false _).mp hfunded⟩

/-- The methods about one stream, once it is known. -/
theorem manage_eq (h : s.Valid) (hbody : x.message.body = [BitVec.ofNat 8 i.val])
    (hi : s.config.Active i) (hfunded : s.funded = true) :
    manage x actor s = (if x.message.methodId = Ids.cancel then cancel actor s i
      else if x.message.methodId = Ids.claim then
        failIf (actor ≠ s.config.signer i 0) eAuth >>= fun _ => pay x s i 0
      else if x.message.methodId = Ids.refund then
        failIf (actor ≠ s.config.signer i 1) eAuth >>= fun _ => pay x s i 1
      else .error eArgs) := by
  obtain ⟨hguard, hindex⟩ := (streamBody_iff h.config).mpr ⟨hbody, hi⟩
  have hno : ¬ s.funded = false := (Bool.not_eq_false _).mpr hfunded
  have hargs : failIf (x.message.body.length ≠ 1 ∨ s.config.count ≤ x.message.body.getD 0 0)
      eArgs = .ok () := failIf_ok_iff.mpr hguard
  have hphase : failIf (s.funded = false) ePhase = .ok () := failIf_ok_iff.mpr hno
  unfold manage
  dsimp only
  rw [hargs, ok_bind, hphase, ok_bind, hindex]
  rfl

/-! ## Currencies of a callback -/

/-- A currency that a callback may bring. -/
def Brings (principal : Option U128) (c : CurrencyAmount) : Prop :=
  c.currencyId = principalCurrencyId ∧ principal = some c.amount ∨
    c.currencyId = shellCurrencyId ∧ c.amount ≠ 0

omit [Target] in
/-- One currency of a callback, in terms of what it may bring. -/
theorem scanValue_eq_some {principal : Option U128} {b r : Bool} {c : CurrencyAmount} :
    scanValue principal b c = some r ↔
      Brings principal c ∧ (b || decide (c.currencyId = principalCurrencyId)) = r := by
  have hpos : 0 < c.amount ↔ c.amount ≠ 0 := by
    rw [BitVec.lt_def, ne_eq, ← BitVec.toNat_inj]
    exact Nat.pos_iff_ne_zero
  have hids : principalCurrencyId ≠ shellCurrencyId := by decide
  unfold scanValue Brings
  simp only [hpos]
  by_cases hprincipal : c.currencyId = principalCurrencyId
  · have hshell : c.currencyId ≠ shellCurrencyId := hprincipal ▸ hids
    simp [hprincipal, hids]
  · simp [hprincipal]

omit [Target] in
/-- The scan over the currencies: all of them bring the principal, and whether one is it. -/
theorem foldlM_scanValue {principal : Option U128} {b r : Bool} {cs : List CurrencyAmount} :
    cs.foldlM (scanValue principal) b = some r ↔ (∀ c ∈ cs, Brings principal c) ∧
      (b || cs.any fun c => decide (c.currencyId = principalCurrencyId)) = r := by
  induction cs generalizing b with
  | nil => simp
  | cons c cs ih =>
      rw [List.foldlM_cons, Option.bind_eq_bind, Option.bind_eq_some_iff]
      simp only [scanValue_eq_some, ih, List.forall_mem_cons, List.any_cons, ← Bool.or_assoc]
      constructor
      · rintro ⟨_, ⟨hc, rfl⟩, hcs, hr⟩
        exact ⟨⟨hc, hcs⟩, hr⟩
      · rintro ⟨⟨hc, hcs⟩, hr⟩
        exact ⟨_, ⟨hc, rfl⟩, hcs, hr⟩

/-- The test of the currencies, in terms of what a callback may bring. -/
theorem callbackValue_iff {extra : CurrencyAmounts} {principal : Option U128} :
    callbackValue extra principal = true ↔ (∀ c ∈ extra.items, Brings principal c) ∧
      (principal = none ∨ ∃ c ∈ extra.items, c.currencyId = principalCurrencyId) := by
  have hsome : callbackValue extra principal = true ↔
      extra.items.foldlM (scanValue principal) principal.isNone = some true := by
    unfold callbackValue
    cases extra.items.foldlM (scanValue principal) principal.isNone with
    | none => simp
    | some r => simp
  rw [hsome, foldlM_scanValue, Bool.or_eq_true, Option.isNone_iff_eq_none, List.any_eq_true]
  simp only [decide_eq_true_iff]

/-- A callback without principal brings SHELL only. -/
theorem callbackValue_none_iff {extra : CurrencyAmounts} :
    callbackValue extra none = true ↔
      ∀ c ∈ extra.items, c.currencyId = shellCurrencyId ∧ c.amount ≠ 0 := by
  simp [callbackValue_iff, Brings]

/-- A callback with principal brings it, and SHELL. -/
theorem callbackValue_some_iff {extra : CurrencyAmounts} {v : U128} :
    callbackValue extra (some v) = true ↔
      (∃ c ∈ extra.items, c.currencyId = principalCurrencyId) ∧ ∀ c ∈ extra.items,
        c.currencyId = principalCurrencyId ∧ c.amount = v ∨
          c.currencyId = shellCurrencyId ∧ c.amount ≠ 0 := by
  have hsome : ¬ some v = none := Option.some_ne_none v
  rw [callbackValue_iff, and_comm]
  simp only [Brings, hsome, false_or, Option.some.injEq, eq_comm (a := v)]

/-! ## Callbacks -/

omit [Target] in
/-- **The lane of an account** is the one that pays to it. -/
theorem Config.laneOf_eq_some_iff {c : Config} (hc : c.Valid) {source : AccountAddress} :
    c.laneOf source = some (i, k) ↔ c.Active i ∧ (c.streams i).destination k = source := by
  -- what the search finds pays to the account
  have hfound {j : Fin maxStreams} {l : Fin 2} (h : c.laneOf source = some (j, l)) :
      c.Active j ∧ (c.streams j).destination l = source := by
    obtain ⟨n, hn, heq⟩ := List.exists_of_findSome?_eq_some h
    split_ifs at heq with hpayout hrefund
    · cases heq
      exact ⟨mem_firstIndices.mp hn, hpayout⟩
    · cases heq
      exact ⟨mem_firstIndices.mp hn, hrefund⟩
  refine ⟨hfound, ?_⟩
  rintro ⟨hi, hsource⟩
  have hsome : (c.laneOf source).isSome := by
    unfold laneOf
    rw [List.findSome?_isSome_iff]
    refine ⟨i, mem_firstIndices.mpr hi, ?_⟩
    have hcases : k = 0 ∨ k = 1 := by omega
    rcases hcases with rfl | rfl
    · rw [if_pos (show (c.streams i).payout = source from hsource)]
      rfl
    · rw [if_pos (show (c.streams i).refund = source from hsource)]
      split_ifs <;> rfl
  obtain ⟨⟨j, l⟩, hjl⟩ := Option.isSome_iff_exists.mp hsome
  obtain ⟨hj, hlane⟩ := hfound hjl
  obtain ⟨rfl, rfl⟩ := hc.destination_injective hj hi (hlane.trans hsource.symm)
  exact hjl

omit [Target] in
/-- A receipt in the words of the code. -/
theorem addPaid_eq {p : Progress} (lane : Lane)
    (hfits : (p.paid k).toNat + amount.toNat < 2 ^ 128) : ∃ q, p.addPaid k amount = .ok q ∧
      { q with lanes := Function.update q.lanes k lane } =
        p.withLane k (p.paid k + amount) lane := by
  have hcases : k = 0 ∨ k = 1 := by omega
  unfold Progress.addPaid
  rcases hcases with rfl | rfl
  · rw [Progress.paid_zero] at hfits ⊢
    rw [if_pos rfl, wordCheckedAdd_of_lt hfits, okOr_some, ok_bind]
    exact ⟨_, rfl, rfl⟩
  · rw [Progress.paid_one] at hfits ⊢
    rw [if_neg Fin.zero_ne_one.symm, wordCheckedAdd_of_lt hfits, okOr_some, ok_bind]
    exact ⟨_, rfl, rfl⟩

omit [Target] in
/-- A return in the words of the code. -/
theorem withLane_paid {p : Progress} {lane : Lane} :
    { p with lanes := Function.update p.lanes k lane } = p.withLane k (p.paid k) lane := by
  have hcases : k = 0 ∨ k = 1 := by omega
  rcases hcases with rfl | rfl
  · rfl
  · rfl

section

variable {source : AccountAddress} {message : InternalMessage} {h : CallbackHeader}

/-- When a receipt settles a payment, -/
theorem settle_ok_iff (hs : s.Valid) (hi : s.config.Active i)
    (hnonce : ((s.progress i).lanes k).nonce ≠ 0) (hpending : ((s.progress i).lanes k).pending ≠ 0)
    (hstatus : h.statusCode = 0) : settle message h s i k = .ok t ↔
      ReceiptOk s message h i k ∧ s.settled i k message.createdLt h.causeMsgHash = t := by
  obtain ⟨q, hq, hlanes⟩ := addPaid_eq (k := k)
    (Lane.closed message.createdLt h.causeMsgHash) (hs.paid_add_lt hi k)
  have hread : readPayment message.body = .ok (i.val, k.val, ((s.progress i).lanes k).nonce,
      ((s.progress i).lanes k).pending) ↔
        message.body = paymentBody (BitVec.ofNat 8 i.val) (BitVec.ofNat 8 k.val)
          ((s.progress i).lanes k).nonce ((s.progress i).lanes k).pending := by
    have hi8 : i.val < 8 := i.isLt
    have hk2 := k.isLt
    have hival : (BitVec.ofNat 8 i.val).toNat = i.val := by
      rw [BitVec.toNat_ofNat, Nat.mod_eq_of_lt (by omega)]
    have hkval : (BitVec.ofNat 8 k.val).toNat = k.val := by
      rw [BitVec.toNat_ofNat, Nat.mod_eq_of_lt (by omega)]
    rw [readPayment_ok_iff]
    constructor
    · rintro ⟨index, kind, hindex, hkind, -, -, -, -, hbody⟩
      rw [← hindex, ← hkind, BitVec.ofNat_toNat, BitVec.ofNat_toNat]
      simpa using hbody
    · intro hbody
      exact ⟨_, _, hival, hkval, i.isLt, by omega, hnonce, hpending, hbody⟩
  simp only [settle, bind_ok_iff, failIf_ok_iff, exists_const, mapError_ok_iff, Bool.not_eq_false,
    callbackValue_none_iff, not_not, pure_ok_iff, hq, Except.ok.injEq, exists_eq_left', hlanes]
  constructor
  · rintro ⟨hfees, _, hbody, rfl, rfl⟩
    exact ⟨⟨hstatus, hfees, hread.mp hbody⟩, rfl⟩
  · rintro ⟨ok, rfl⟩
    exact ⟨ok.fees, _, hread.mpr ok.body, rfl, rfl⟩

/-- and when a bounce releases it. -/
theorem release_ok_iff (hstatus : h.statusCode ≠ 0) : release message h s i k = .ok t ↔
    BounceOk s message h i k ∧ s.released i k message.createdLt h.causeMsgHash = t := by
  simp only [release, bind_ok_iff, failIf_ok_iff, exists_const, not_or, Bool.not_eq_false,
    callbackValue_some_iff, not_not, pure_ok_iff, withLane_paid]
  constructor
  · rintro ⟨⟨⟨hsome, hcurrencies⟩, hbody⟩, rfl⟩
    exact ⟨⟨hstatus, hsome, hcurrencies, hbody⟩, rfl⟩
  · rintro ⟨ok, rfl⟩
    exact ⟨⟨⟨ok.some, ok.currencies⟩, ok.body⟩, rfl⟩

/-- The report of a callback. -/
def callbackReport (s t : State) (h : CallbackHeader) (i : Fin maxStreams) (k : Fin 2) :
    ResultCode MessageOutput :=
  if h.statusCode = 0 then
    finish t Ids.eventSettled "stream.settled" (BitVec.ofNat 8 i.val) (BitVec.ofNat 8 k.val)
      ((s.progress i).lanes k).pending
  else
    finish t Ids.eventFailed "stream.failed" (BitVec.ofNat 8 i.val) (BitVec.ofNat 8 k.val)
      ((s.progress i).lanes k).pending

/-- When a callback is accepted: as a receipt, or as a bounce. -/
theorem callback_ok_iff (hs : s.Valid) (ret : Returns x source message h) :
    callback x s = .ok out ↔ ∃ i k, CallbackOk x s source message h i k ∧
      (ReceiptOk s message h i k ∧
          callbackReport s (s.settled i k message.createdLt h.causeMsgHash) h i k = .ok out ∨
        BounceOk s message h i k ∧
          callbackReport s (s.released i k message.createdLt h.causeMsgHash) h i k = .ok out) := by
  have hflag : (CanonicalMessage.internal message).isCallback := by
    rw [← ret.message_eq]
    exact ret.is_callback
  simp only [callback, ret.caller, ret.message_eq, ret.header, okOr_some, ok_bind, bind_ok_iff,
    okOr_ok_iff, failIf_ok_iff, exists_const, Prod.exists, Config.laneOf_eq_some_iff hs.config,
    hflag, not_true_eq_false, false_or, not_or, not_not, BitVec.not_le]
  constructor
  · rintro ⟨⟨hmethod, hrequest⟩, ⟨hcause, hhash⟩, i, k, ⟨hi, hsource⟩,
      ⟨hpending, hafter, hlater, hfresh⟩, hrest⟩
    have hnonce := (((hs.streams i hi).lanes k).locked hpending).1
    refine ⟨i, k, ⟨hi, hsource, hmethod, hrequest, hcause, hhash, hpending, hafter, hlater, hfresh⟩,
      ?_⟩
    by_cases hstatus : h.statusCode = 0
    · rw [if_pos hstatus, bind_ok_iff] at hrest
      obtain ⟨t, ht, hfinish⟩ := hrest
      obtain ⟨ok, rfl⟩ := (settle_ok_iff hs hi hnonce hpending hstatus).mp ht
      refine .inl ⟨ok, ?_⟩
      rw [callbackReport, if_pos hstatus]
      exact hfinish
    · rw [if_neg hstatus, bind_ok_iff] at hrest
      obtain ⟨t, ht, hfinish⟩ := hrest
      obtain ⟨ok, rfl⟩ := (release_ok_iff hstatus).mp ht
      refine .inr ⟨ok, ?_⟩
      rw [callbackReport, if_neg hstatus]
      exact hfinish
  · rintro ⟨i, k, ok, hrest⟩
    have hnonce := (((hs.streams i ok.active).lanes k).locked ok.pending).1
    refine ⟨⟨ok.method_eq, ok.no_request⟩, ⟨ok.cause, ok.hash_ne_zero⟩, i, k,
      ⟨ok.active, ok.source_eq⟩, ⟨ok.pending, ok.after, ok.later, ok.hash_fresh⟩, ?_⟩
    rcases hrest with ⟨arrived, hfinish⟩ | ⟨returned, hfinish⟩
    · rw [callbackReport, if_pos arrived.success] at hfinish
      rw [if_pos arrived.success,
        (settle_ok_iff hs ok.active hnonce ok.pending arrived.success).mpr ⟨arrived, rfl⟩]
      exact hfinish
    · rw [callbackReport, if_neg returned.failure] at hfinish
      rw [if_neg returned.failure, (release_ok_iff returned.failure).mpr ⟨returned, rfl⟩]
      exact hfinish

/-- A callback that gets through comes from an account and has a header. -/
theorem returns_of_callback (hcallback : x.message.isCallback) (h : callback x s = .ok out) :
    ∃ source message h, Returns x source message h := by
  unfold callback at h
  split at h
  next source message hcaller hmessage =>
    simp only [bind_ok_iff] at h
    obtain ⟨-, -, header, hheader, -⟩ := h
    exact ⟨source, message, header, hcallback, hcaller, hmessage, okOr_ok_iff.mp hheader⟩
  next => exact absurd h nofun

end

/-! ## The handler -/

/-- A valid state is decoded. -/
theorem State.Valid.decode_encode (h : s.Valid) : State.decode s.encode = .ok s :=
  State.decode_ok_iff.mpr ⟨rfl, h⟩

/-- The state of a valid contract decodes to it. -/
theorem State.Valid.decode_eq (h : s.Valid) (hstate : x.state = s.encode) :
    State.decode x.state = .ok s := by
  rw [hstate]
  exact h.decode_encode

/-- The handler on a callback message. -/
theorem process_callback (h : s.Valid) (hstate : x.state = s.encode)
    (hcallback : x.message.isCallback) :
    process x = callback x (s.observed x.context.blockTime) := by
  rw [process, h.decode_eq hstate, ok_bind]
  exact if_pos hcallback

/-- The handler on a message from outside. -/
theorem process_asks (h : s.Valid) (hstate : x.state = s.encode)
    (ask : Asks x x.message.methodId actor) :
    process x = (if x.message.methodId = Ids.topup then topup x (s.observed x.context.blockTime)
      else if x.message.methodId = Ids.fund then fund x actor (s.observed x.context.blockTime)
      else zeroValue x >>= fun _ =>
        if x.message.methodId = Ids.status then status x (s.observed x.context.blockTime)
        else manage x actor (s.observed x.context.blockTime)) := by
  rw [process, h.decode_eq hstate, ok_bind]
  dsimp only
  rw [if_neg ask.not_callback, ask.caller]

/-- The messages that the handler looks at. -/
theorem asks_or_callback (h : s.Valid) (hstate : x.state = s.encode) (hok : process x = .ok out) :
    x.message.isCallback ∨ ∃ actor, Asks x x.message.methodId actor := by
  by_cases hcallback : x.message.isCallback
  · exact .inl hcallback
  · rw [process, h.decode_eq hstate, ok_bind] at hok
    dsimp only at hok
    rw [if_neg hcallback] at hok
    cases hcaller : x.caller with
    | «internal» source =>
        rw [hcaller] at hok
        exact absurd hok nofun
    | external actor => exact .inr ⟨actor, hcallback, hcaller, rfl⟩

omit [Target] in
/-- A method behind the test for an empty currency list. -/
theorem free_of_zeroValue {next : ResultCode MessageOutput}
    (hok : (zeroValue x >>= fun _ => next) = .ok out) :
    x.message.extra.isEmpty ∧ next = .ok out := by
  obtain ⟨_, hfree, hok⟩ := bind_ok_iff.mp hok
  exact ⟨not_not.mp (failIf_ok_iff.mp hfree), hok⟩

/-- A call with nothing sent, from the report of its method. -/
theorem act_of_finish (hact : Act x s t none)
    (hfinish : finish t eventClass name index kind amount = .ok out) :
    ∃ t o e, Act x s t o ∧ out = answer t.encode e o := by
  obtain ⟨-, e, rfl⟩ := finish_inv hfinish
  exact ⟨t, none, e, hact, rfl⟩

/-- The report of a callback is the answer of an act. -/
theorem act_of_callbackReport {u : State} {h : CallbackHeader} (hact : Act x s t none)
    (hreport : callbackReport u t h i k = .ok out) :
    ∃ t o e, Act x s t o ∧ out = answer t.encode e o := by
  unfold callbackReport at hreport
  split_ifs at hreport
  · exact act_of_finish hact hreport
  · exact act_of_finish hact hreport

/-- A payment, from its report. -/
theorem act_of_pay (h : s.Valid) (ask : Asks x (payMethod k) actor)
    (hfree : x.message.extra.isEmpty) (hbody : x.message.body = [BitVec.ofNat 8 i.val])
    (hi : s.config.Active i) (hfunded : s.funded = true)
    (hok : (failIf (actor ≠ s.config.signer i k) eAuth >>= fun _ => pay x s i k) = .ok out) :
    ∃ t o e, Act x s t o ∧ out = answer t.encode e o := by
  obtain ⟨_, hactor, hok⟩ := bind_ok_iff.mp hok
  obtain ⟨amount, nonce, ok, out', hreport, rfl⟩ := (pay_ok_iff h hi hfunded hbody).mp hok
  obtain ⟨-, e, rfl⟩ := finish_inv hreport
  rw [← not_not.mp (failIf_ok_iff.mp hactor)] at ok
  exact ⟨_, _, e, .pay ask hfree ok, rfl⟩

/-- What the methods about one stream accept. -/
theorem act_of_manage (h : s.Valid) (ask : Asks x x.message.methodId actor)
    (hfree : x.message.extra.isEmpty) (hok : manage x actor s = .ok out) :
    ∃ t o e, Act x s t o ∧ out = answer t.encode e o := by
  obtain ⟨i, hbody, hi, hfunded⟩ := manage_inv h hok
  rw [manage_eq h hbody hi hfunded] at hok
  split_ifs at hok with hcancel hclaim hrefund
  · obtain ⟨cap, ok, hfinish⟩ := (cancel_ok_iff h hi hfunded hbody).mp hok
    exact act_of_finish (.cancel (hcancel ▸ ask) hfree ok) hfinish
  · have hpayout : Asks x Ids.claim actor := hclaim ▸ ask
    exact act_of_pay (k := 0) h hpayout hfree hbody hi hfunded hok
  · have hrest : Asks x Ids.refund actor := hrefund ▸ ask
    exact act_of_pay (k := 1) h hrest hfree hbody hi hfunded hok

/-- **What the handler accepts** are steps. -/
theorem process_ok (h : s.Valid) (hstate : x.state = s.encode) (hok : process x = .ok out) :
    ∃ t o e, Step x s t o ∧ out = answer t.encode e o := by
  have hv := h.observed x.context.blockTime
  unfold Step
  rcases asks_or_callback h hstate hok with hcallback | ⟨actor, ask⟩
  · rw [process_callback h hstate hcallback] at hok
    obtain ⟨source, message, header, ret⟩ := returns_of_callback hcallback hok
    obtain ⟨i, k, ok, ⟨arrived, hreport⟩ | ⟨returned, hreport⟩⟩ := (callback_ok_iff hv ret).mp hok
    · exact act_of_callbackReport (.receipt ret ok arrived) hreport
    · exact act_of_callbackReport (.bounce ret ok returned) hreport
  · rw [process_asks h hstate ask] at hok
    split_ifs at hok with htopup hfund hstatus
    · obtain ⟨ok, hfinish⟩ := topup_ok_iff.mp hok
      exact act_of_finish (.topup (htopup ▸ ask) ok) hfinish
    · obtain ⟨total, ok, hfinish⟩ := (fund_ok_iff hv).mp hok
      exact act_of_finish (.fund (hfund ▸ ask) ok) hfinish
    · obtain ⟨hfree, hok⟩ := free_of_zeroValue hok
      obtain ⟨hbody, hfinish⟩ := status_ok_iff.mp hok
      exact act_of_finish (.status (hstatus ▸ ask) hfree hbody) hfinish
    · obtain ⟨hfree, hok⟩ := free_of_zeroValue hok
      exact act_of_manage hv ask hfree hok

/-- A payment gets through the checks of its method. -/
theorem manage_pay (h : s.Valid) (ask : Asks x (payMethod k) actor)
    (hbody : x.message.body = [BitVec.ofNat 8 i.val]) (hi : s.config.Active i)
    (hfunded : s.funded = true) (hsigner : s.config.signer i k = actor) :
    manage x actor s = pay x s i k := by
  have hpass : failIf (actor ≠ s.config.signer i k) eAuth = .ok () :=
    failIf_ok_iff.mpr (not_not.mpr hsigner.symm)
  have hmethod := ask.method_eq
  have hcases : k = 0 ∨ k = 1 := by omega
  rw [manage_eq h hbody hi hfunded, hmethod]
  rcases hcases with rfl | rfl
  · have hclaim : payMethod 0 = Ids.claim := rfl
    rw [if_neg (by decide), if_pos hclaim, hpass, ok_bind]
  · have hrefund : payMethod 1 = Ids.refund := rfl
    rw [if_neg (by decide), if_neg (by decide), if_pos hrefund, hpass, ok_bind]

/-- **Every step** is accepted by the handler. -/
theorem process_of_step (h : s.Valid) (hstate : x.state = s.encode) (hstep : Step x s t o) :
    ∃ e, process x = .ok (answer t.encode e o) := by
  have hv := h.observed x.context.blockTime
  have ht := hstep.valid h
  have hzero (hfree : x.message.extra.isEmpty) : zeroValue x = .ok () :=
    failIf_ok_iff.mpr (not_not.mpr hfree)
  have hasks {method : U64} {actor : Bytes32} (ask : Asks x method actor) :
      Asks x x.message.methodId actor := ⟨ask.not_callback, ask.caller, rfl⟩
  cases hstep with
  | topup ask ok =>
      obtain ⟨e, he⟩ := ht.exists_finish Ids.eventFees "stream.fees" 255 255 0
      refine ⟨e, ?_⟩
      rw [process_asks h hstate (hasks ask), ask.method_eq, if_pos rfl]
      exact topup_ok_iff.mpr ⟨ok, he⟩
  | @fund _ total ask ok =>
      obtain ⟨e, he⟩ := ht.exists_finish Ids.eventFunded "stream.funded" 255 255 total
      refine ⟨e, ?_⟩
      rw [process_asks h hstate (hasks ask), ask.method_eq, if_neg (by decide), if_pos rfl]
      exact (fund_ok_iff hv).mpr ⟨_, ok, he⟩
  | status ask hfree hbody =>
      obtain ⟨e, he⟩ := ht.exists_finish Ids.eventStatus "stream.status" 255 255 0
      refine ⟨e, ?_⟩
      rw [process_asks h hstate (hasks ask), ask.method_eq, if_neg (by decide),
        if_neg (by decide), hzero hfree, ok_bind, if_pos rfl]
      exact status_ok_iff.mpr ⟨hbody, he⟩
  | @cancel _ i cap ask hfree ok =>
      obtain ⟨e, he⟩ := ht.exists_finish Ids.eventCancelled "stream.cancelled"
        (BitVec.ofNat 8 i.val) 255 cap
      refine ⟨e, ?_⟩
      rw [process_asks h hstate (hasks ask), ask.method_eq, if_neg (by decide),
        if_neg (by decide), hzero hfree, ok_bind, if_neg (by decide),
        manage_eq hv ok.body ok.active ok.funded, ask.method_eq, if_pos rfl]
      exact (cancel_ok_iff hv ok.active ok.funded ok.body).mpr ⟨_, ok, he⟩
  | @pay _ i k amount nonce ask hfree ok =>
      obtain ⟨e, he⟩ := ht.exists_finish Ids.eventPending "stream.pending" (BitVec.ofNat 8 i.val)
        (BitVec.ofNat 8 k.val) amount
      have hother : payMethod k ≠ Ids.topup ∧ payMethod k ≠ Ids.fund ∧ payMethod k ≠ Ids.status := by
        have hcases : k = 0 ∨ k = 1 := by omega
        rcases hcases with rfl | rfl <;> decide
      refine ⟨e, ?_⟩
      rw [process_asks h hstate (hasks ask), ask.method_eq, if_neg hother.1, if_neg hother.2.1,
        hzero hfree, ok_bind, if_neg hother.2.2,
        manage_pay hv ask ok.body ok.active ok.funded ok.signer,
        pay_ok_iff hv ok.active ok.funded ok.body, ok.signer]
      exact ⟨_, _, ok, _, he, rfl⟩
  | @receipt _ _ header i k ret ok arrived =>
      obtain ⟨e, he⟩ := ht.exists_finish Ids.eventSettled "stream.settled" (BitVec.ofNat 8 i.val)
        (BitVec.ofNat 8 k.val) (((s.observed x.context.blockTime).progress i).lanes k).pending
      refine ⟨e, ?_⟩
      rw [process_callback h hstate ret.is_callback, callback_ok_iff hv ret]
      refine ⟨i, k, ok, .inl ⟨arrived, ?_⟩⟩
      rw [callbackReport, if_pos arrived.success]
      exact he
  | @bounce _ _ header i k ret ok returned =>
      obtain ⟨e, he⟩ := ht.exists_finish Ids.eventFailed "stream.failed" (BitVec.ofNat 8 i.val)
        (BitVec.ofNat 8 k.val) (((s.observed x.context.blockTime).progress i).lanes k).pending
      refine ⟨e, ?_⟩
      rw [process_callback h hstate ret.is_callback, callback_ok_iff hv ret]
      refine ⟨i, k, ok, .inr ⟨returned, ?_⟩⟩
      rw [callbackReport, if_neg returned.failure]
      exact he

end

end AvmSdk.Vesting
