import AvmSdk.Contracts.Handler
import AvmSdk.Trace.Pairing

/-!
# Payments over lanes

A contract that pays over several lanes, each with its own account at the other end. A lane carries
one payment at a time: a dispatch opens it, and a callback message of the account closes it.

* `Payer`: the lanes of a contract, the calls that open one, the form of a payment.
  `Payer.Lawful`: what the lanes must satisfy.
* `LaneStep`, `Payer.Moves`: what a call does to a lane, and to all lanes.
* `Payer.alternates`, `Payer.answers_ascend`, `Payer.settled_eq`, `Payer.dispatches_numbered`,
  `Payer.receipts_spent`, `Payer.answers_nodup`: what the history of a run says about the lanes.
-/

namespace AvmSdk.Contracts

open Wire Sdk Trace

/-- An accepted callback does not report both a success and a failure. -/
theorem not_receipt_of_bounce {c : Call} (h : c.AcceptedBounce) : ¬ c.AcceptedReceipt := by
  obtain ⟨-, header, hheader, hfailure⟩ := h
  rintro ⟨-, header', hheader', hsuccess⟩
  rw [Option.mem_def] at hheader hheader'
  rw [hheader, Option.some.injEq] at hheader'
  exact hfailure (hheader' ▸ hsuccess)

/-- What a contract remembers of a lane. -/
structure LaneState where
  /-- The amount under way, zero if there is none. -/
  pending : U128
  /-- The number of the payment under way. -/
  nonce : U64
  /-- The creation time of the last callback message. -/
  lastLt : U64
  /-- The sum of what has arrived. -/
  settled : ℕ

/-- A lane that was never used. -/
def LaneState.fresh : LaneState := ⟨0, 0, 0, 0⟩

/-- The lanes of a contract with states in `σ`. -/
structure Payer (ι σ : Type) where
  /-- The account at the end of a lane. -/
  destination : ι → AccountAddress
  /-- The method that takes a payment. -/
  method : U64
  /-- The method that takes the callback. -/
  handler : U64
  /-- The body of a payment. -/
  body : ι → U64 → U128 → Bytes
  /-- The number in a body. -/
  bodyNonce : Bytes → U64
  /-- The amount in a body. -/
  bodyAmount : Bytes → U128
  /-- The accepted calls that send a payment. -/
  Dispatches : Call → Prop
  decidableDispatches : DecidablePred Dispatches
  /-- The accepted calls that send a payment over a lane. -/
  Opens : ι → Call → Prop
  decidableOpens : ∀ i, DecidablePred (Opens i)
  /-- A lane of a state. -/
  lane : σ → ι → LaneState
  /-- The number of the last payment. -/
  counter : σ → U64

namespace Payer

variable {ι σ : Type}

instance (payer : Payer ι σ) : DecidablePred payer.Dispatches := payer.decidableDispatches

instance (payer : Payer ι σ) (i : ι) : DecidablePred (payer.Opens i) := payer.decidableOpens i

/-- An accepted callback from the account at the end of a lane. -/
def IsAnswer (payer : Payer ι σ) (i : ι) (c : Call) : Prop :=
  c.AcceptedCallback ∧ c.input.caller = .internal (payer.destination i)

instance (payer : Payer ι σ) (i : ι) : DecidablePred (payer.IsAnswer i) :=
  fun _ => inferInstanceAs (Decidable (_ ∧ _))

/-- The call emits one message: the payment of an amount, and nothing else, over a lane. It asks for
a callback. -/
def Pays (payer : Payer ι σ) (i : ι) (nonce : U64) (amount : U128) (c : Call) : Prop :=
  (∃ fuel : U128, c.output.outboundIntents =
    [{ inputIndex := 0
       destination := payer.destination i
       fuelFeeShells := fuel
       extra := [⟨principalCurrencyId, amount⟩]
       methodId := payer.method
       body := payer.body i nonce amount }]) ∧
    c.output.callbackIntents = [⟨0, payer.handler⟩]

/-- A callback answers a dispatch: it reports the success of exactly this payment, or brings exactly
this amount back. -/
def Answers [Target] (payer : Payer ι σ) (i : ι) (a c : Call) : Prop :=
  payer.IsAnswer i c ∧ ∃ nonce amount, payer.Pays i nonce amount a ∧
    (c.AcceptedReceipt ∧ c.input.message.body = payer.body i nonce amount ∨
      c.AcceptedBounce ∧ c.attached principalCurrencyId = amount.toNat)

/-- The number of the payment that a call emits. -/
def sentNonce (payer : Payer ι σ) (c : Call) : ℕ :=
  (c.output.outboundIntents.map fun intent => (payer.bodyNonce intent.body).toNat).headD 0

/-- **What a call does to a lane.** -/
inductive LaneStep [Target] (payer : Payer ι σ) (i : ι) (c : Call) (m : LaneState) : LaneState → Prop
  /-- A payment is sent. -/
  | opened {nonce : U64} {amount : U128} (opens : payer.Opens i c)
      (pays : payer.Pays i nonce amount c) (idle : m.pending = 0) (some : amount ≠ 0) :
      LaneStep payer i c m { m with pending := amount, nonce := nonce }
  /-- The payment has arrived. -/
  | receipt (answer : payer.IsAnswer i c) (success : c.AcceptedReceipt)
      (body : c.input.message.body = payer.body i m.nonce m.pending) (pending : m.pending ≠ 0)
      (later : m.lastLt < c.input.message.createdLt) :
      LaneStep payer i c m
        ⟨0, 0, c.input.message.createdLt, m.settled + m.pending.toNat⟩
  /-- The payment has come back. -/
  | bounce (answer : payer.IsAnswer i c) (failure : c.AcceptedBounce)
      (amount : c.attached principalCurrencyId = m.pending.toNat) (pending : m.pending ≠ 0)
      (later : m.lastLt < c.input.message.createdLt) :
      LaneStep payer i c m ⟨0, 0, c.input.message.createdLt, m.settled⟩
  /-- The call is not about the lane. -/
  | other (not_opens : ¬ payer.Opens i c) (not_answer : ¬ payer.IsAnswer i c) :
      LaneStep payer i c m m

/-- What the lanes of a contract must satisfy. -/
structure Lawful (payer : Payer ι σ) : Prop where
  destination_injective : Function.Injective payer.destination
  opens_unique : ∀ i j c, payer.Opens i c → payer.Opens j c → i = j
  opens_dispatches : ∀ i c, payer.Opens i c → payer.Dispatches c
  dispatches_plain : ∀ c, payer.Dispatches c → ¬ c.input.message.isCallback
  bodyNonce_body : ∀ i nonce amount, payer.bodyNonce (payer.body i nonce amount) = nonce
  bodyAmount_body : ∀ i nonce amount, payer.bodyAmount (payer.body i nonce amount) = amount

/-- A contract that has not paid anything. -/
structure Fresh (payer : Payer ι σ) (s : σ) : Prop where
  counter_eq : payer.counter s = 0
  lanes : ∀ i, payer.lane s i = .fresh

/-- **What a call does to the lanes.** A dispatch opens a lane under the next number, an answer closes
one. -/
structure Moves [Target] (payer : Payer ι σ) (s : σ) (c : Call) (t : σ) : Prop where
  wellFormed : c.input.WellFormed
  lanes : ∀ i, payer.LaneStep i c (payer.lane s i) (payer.lane t i)
  numbered : ∀ i, payer.Opens i c →
    (payer.counter s).toNat + 1 = (payer.lane t i).nonce.toNat ∧
      payer.counter t = (payer.lane t i).nonce
  opens : payer.Dispatches c → ∃ i, payer.Opens i c
  quiet : ¬ payer.Dispatches c → payer.counter t = payer.counter s
  answered : c.AcceptedCallback → ∃ i, payer.IsAnswer i c

/-- The runs of the lanes. -/
abbrev Runs [Target] (payer : Payer ι σ) : List Call → σ → Prop :=
  Trace.Run payer.Fresh payer.Moves

/-! ## Steps of a lane -/

section

variable [Target] {payer : Payer ι σ} {i j : ι} {c : Call} {m m' : LaneState}

omit [Target] in
/-- A dispatch is no answer. -/
theorem Lawful.not_answer (h : payer.Lawful) (hopens : payer.Opens i c) : ¬ payer.IsAnswer j c :=
  fun hanswer => h.dispatches_plain c (h.opens_dispatches i c hopens) hanswer.1.2

/-- An answer was created after the answers before it. -/
theorem LaneStep.later (hlawful : payer.Lawful) (hstep : payer.LaneStep i c m m')
    (hanswer : payer.IsAnswer i c) : m.lastLt < c.input.message.createdLt := by
  cases hstep with
  | opened opens => exact absurd hanswer (hlawful.not_answer opens)
  | receipt _ _ _ _ later => exact later
  | bounce _ _ _ _ later => exact later
  | other _ not_answer => exact absurd hanswer not_answer

/-- An answer finds a payment under way, and closes the lane. -/
theorem LaneStep.closes (hlawful : payer.Lawful) (hstep : payer.LaneStep i c m m')
    (hanswer : payer.IsAnswer i c) : m.pending ≠ 0 ∧ m'.pending = 0 := by
  cases hstep with
  | opened opens => exact absurd hanswer (hlawful.not_answer opens)
  | receipt _ _ _ pending => exact ⟨pending, rfl⟩
  | bounce _ _ _ pending => exact ⟨pending, rfl⟩
  | other _ not_answer => exact absurd hanswer not_answer

/-- A call that is not about a lane leaves it. -/
theorem LaneStep.frame (hstep : payer.LaneStep i c m m') (hopens : ¬ payer.Opens i c)
    (hanswer : ¬ payer.IsAnswer i c) : m' = m := by
  cases hstep with
  | opened opens => exact absurd opens hopens
  | receipt answer => exact absurd answer hanswer
  | bounce answer => exact absurd answer hanswer
  | other => rfl

/-- A payment is under way after a call if it was before, or if the call sent it. -/
theorem LaneStep.pending (hstep : payer.LaneStep i c m m') (hpending : m'.pending ≠ 0)
    (hopens : ¬ payer.Opens i c) : m' = m := by
  cases hstep with
  | opened opens => exact absurd opens hopens
  | receipt => exact absurd rfl hpending
  | bounce => exact absurd rfl hpending
  | other => rfl

end

/-! ## Histories -/

section

variable [Target] {payer : Payer ι σ} {calls : List Call} {s t : σ} {c : Call} {i j : ι}

/-- The lane knows the payment that is under way. -/
def Knows (payer : Payer ι σ) (i : ι) (dispatch : Option Call) (m : LaneState) : Prop :=
  match dispatch with
  | none => m.pending = 0
  | some a => m.pending ≠ 0 ∧ payer.Pays i m.nonce m.pending a

/-- **Dispatches and answers alternate**, and each answer is for the dispatch before. -/
theorem alternates (hrun : payer.Runs calls s) (i : ι) :
    Alternates (payer.Opens i) (payer.Answers i)
      (calls.filter fun c => payer.Opens i c ∨ payer.IsAnswer i c) := by
  have hpaired := hrun.paired (fun c => payer.Opens i c ∨ payer.IsAnswer i c) (payer.Opens i)
    (payer.Answers i) (fun o s => payer.Knows i o (payer.lane s i))
    (fun s hs => by rw [hs.lanes i]; rfl)
    (fun es s c t o _ hknows hmove hnone => ?_) (fun es s c t _ hknows hmove hsome => ?_)
    fun es s c t a _ hknows hmove hsome => ?_
  · obtain ⟨o, hpaired, -⟩ := hpaired
    exact hpaired.alternates
  · -- not about the lane
    obtain ⟨hopens, hanswer⟩ := not_or.mp hnone
    rw [(hmove.lanes i).frame hopens hanswer]
    exact hknows
  · -- nothing is under way
    have hidle : (payer.lane s i).pending = 0 := hknows
    have hstep := hmove.lanes i
    generalize payer.lane t i = m at hstep
    cases hstep with
    | opened opens pays _ some => exact ⟨opens, some, pays⟩
    | receipt _ _ _ pending => exact absurd hidle pending
    | bounce _ _ _ pending => exact absurd hidle pending
    | other not_opens not_answer => exact absurd hsome (not_or.mpr ⟨not_opens, not_answer⟩)
  · -- a payment is under way
    obtain ⟨hpending, hpays⟩ := hknows
    have hstep := hmove.lanes i
    generalize payer.lane t i = m at hstep
    cases hstep with
    | opened _ _ idle => exact absurd idle hpending
    | receipt answer success body => exact ⟨⟨answer, _, _, hpays, .inl ⟨success, body⟩⟩, rfl⟩
    | bounce answer failure amount => exact ⟨⟨answer, _, _, hpays, .inr ⟨failure, amount⟩⟩, rfl⟩
    | other not_opens not_answer => exact absurd hsome (not_or.mpr ⟨not_opens, not_answer⟩)

/-- **The times of the answers ascend**, and the lane keeps the last. -/
theorem answers_ascend (hlawful : payer.Lawful) (hrun : payer.Runs calls s) (i : ι) :
    ((calls.filter (payer.IsAnswer i ·)).map fun c => c.input.message.createdLt.toNat).Pairwise
        (· < ·) ∧
      ∀ c ∈ calls, payer.IsAnswer i c →
        c.input.message.createdLt.toNat ≤ (payer.lane s i).lastLt.toNat := by
  refine hrun.ascending (payer.IsAnswer i) (fun c => c.input.message.createdLt.toNat)
    (fun s => (payer.lane s i).lastLt.toNat) fun es s c t _ hmove => ?_
  have hstep := hmove.lanes i
  generalize payer.lane t i = m at hstep
  cases hstep with
  | opened opens => exact ⟨le_rfl, fun hanswer => absurd hanswer (hlawful.not_answer opens)⟩
  | receipt _ _ _ _ later =>
      have hlt := BitVec.lt_def.mp later
      exact ⟨hlt.le, fun _ => ⟨hlt, le_rfl⟩⟩
  | bounce _ _ _ _ later =>
      have hlt := BitVec.lt_def.mp later
      exact ⟨hlt.le, fun _ => ⟨hlt, le_rfl⟩⟩
  | other _ not_answer => exact ⟨le_rfl, fun hanswer => absurd hanswer not_answer⟩

/-- **What has arrived** is the sum of the receipts. -/
theorem settled_eq (hlawful : payer.Lawful) (hrun : payer.Runs calls s) (i : ι) :
    (payer.lane s i).settled =
      ((calls.filter fun c => payer.IsAnswer i c ∧ c.AcceptedReceipt).map fun c =>
        (payer.bodyAmount c.input.message.body).toNat).sum := by
  have hbalance := hrun.balance (fun s => (payer.lane s i).settled)
    (fun c => if payer.IsAnswer i c ∧ c.AcceptedReceipt then
      (payer.bodyAmount c.input.message.body).toNat else 0) (fun _ => 0)
    (fun s hs => by rw [hs.lanes i]; rfl) fun es s c t _ hmove => ?_
  · rw [List.sum_map_ite] at hbalance
    simpa using hbalance
  · have hstep := hmove.lanes i
    generalize payer.lane t i = m at hstep
    cases hstep with
    | opened opens => rw [if_neg fun h => hlawful.not_answer opens h.1]
    | receipt answer success body =>
        rw [if_pos ⟨answer, success⟩, body, hlawful.bodyAmount_body]
        rfl
    | bounce _ failure => rw [if_neg fun h => not_receipt_of_bounce failure h.2]
    | other _ not_answer => rw [if_neg fun h => not_answer h.1]

/-- The number of the payment that opens a lane. -/
theorem Moves.sentNonce_eq (hlawful : payer.Lawful) (hmove : payer.Moves s c t)
    (hopens : payer.Opens i c) : payer.sentNonce c = (payer.lane t i).nonce.toNat := by
  have hstep := hmove.lanes i
  generalize payer.lane t i = m at hstep
  cases hstep with
  | opened _ pays =>
      obtain ⟨⟨fuel, hout⟩, -⟩ := pays
      simp [sentNonce, hout, hlawful.bodyNonce_body]
  | receipt answer => exact absurd answer (hlawful.not_answer hopens)
  | bounce answer => exact absurd answer (hlawful.not_answer hopens)
  | other not_opens => exact absurd hopens not_opens

/-- **Payments are numbered** 1, 2, 3 and so on, over all lanes. -/
theorem dispatches_numbered (hlawful : payer.Lawful) (hrun : payer.Runs calls s) :
    (calls.filter (payer.Dispatches ·)).map payer.sentNonce =
      List.range' 1 (payer.counter s).toNat := by
  refine hrun.numbered payer.Dispatches payer.sentNonce (fun s => (payer.counter s).toNat)
    (fun s hs => by rw [hs.counter_eq]; rfl) fun es s c t _ hmove => ?_
  refine ⟨fun hdispatch => ?_, fun hno => congrArg BitVec.toNat (hmove.quiet hno)⟩
  obtain ⟨i, hopens⟩ := hmove.opens hdispatch
  obtain ⟨hnext, hcounter⟩ := hmove.numbered i hopens
  rw [hmove.sentNonce_eq hlawful hopens, hcounter]
  exact ⟨hnext.symm, hnext.symm⟩

/-- The counter never goes back. -/
theorem Moves.counter_le (hmove : payer.Moves s c t) :
    (payer.counter s).toNat ≤ (payer.counter t).toNat := by
  by_cases hdispatch : payer.Dispatches c
  · obtain ⟨i, hopens⟩ := hmove.opens hdispatch
    obtain ⟨hnext, hcounter⟩ := hmove.numbered i hopens
    rw [hcounter]
    omega
  · rw [hmove.quiet hdispatch]

/-- A payment that is under way after a call has a new number, or was under way before. -/
theorem Moves.pending_cases (hmove : payer.Moves s c t) (hpending : (payer.lane t i).pending ≠ 0) :
    (payer.Opens i c ∧ (payer.counter s).toNat + 1 = (payer.lane t i).nonce.toNat ∧
        payer.counter t = (payer.lane t i).nonce) ∨
      payer.lane t i = payer.lane s i := by
  by_cases hopens : payer.Opens i c
  · exact .inl ⟨hopens, hmove.numbered i hopens⟩
  · exact .inr ((hmove.lanes i).pending hpending hopens)

/-- The number of a payment under way was given out. -/
theorem nonce_le (hrun : payer.Runs calls s) (hpending : (payer.lane s i).pending ≠ 0) :
    (payer.lane s i).nonce.toNat ≤ (payer.counter s).toNat := by
  have hall := hrun.stateInvariant
    (I := fun s => ∀ i, (payer.lane s i).pending ≠ 0 →
      (payer.lane s i).nonce.toNat ≤ (payer.counter s).toNat)
    (fun s hs i hno => by rw [hs.lanes i] at hno; exact absurd rfl hno)
    fun s c t hold hmove i hpending => ?_
  · exact hall i hpending
  · rcases hmove.pending_cases hpending with ⟨-, -, hcounter⟩ | hlane
    · rw [hcounter]
    · rw [hlane] at hpending ⊢
      exact (hold i hpending).trans hmove.counter_le

/-- No two payments under way have the same number. -/
theorem nonces_distinct (hlawful : payer.Lawful) (hrun : payer.Runs calls s)
    (hi : (payer.lane s i).pending ≠ 0) (hj : (payer.lane s j).pending ≠ 0)
    (heq : (payer.lane s i).nonce = (payer.lane s j).nonce) : i = j := by
  have hdistinct := hrun.invariant
    (I := fun _ s => ∀ i j, (payer.lane s i).pending ≠ 0 → (payer.lane s j).pending ≠ 0 →
      (payer.lane s i).nonce = (payer.lane s j).nonce → i = j)
    (fun s hs i j hno => by rw [hs.lanes i] at hno; exact absurd rfl hno)
    fun es s c t hrun hold hmove i j hi hj heq => ?_
  · exact hdistinct i j hi hj heq
  · rcases hmove.pending_cases hi with ⟨hopensi, hnexti, -⟩ | hlanei
    · rcases hmove.pending_cases hj with ⟨hopensj, -, -⟩ | hlanej
      · exact hlawful.opens_unique i j c hopensi hopensj
      · -- the number of `j` is old
        rw [hlanej] at hj heq
        have hle := nonce_le hrun hj
        rw [← heq] at hle
        omega
    · rcases hmove.pending_cases hj with ⟨-, hnextj, -⟩ | hlanej
      · rw [hlanei] at hi heq
        have hle := nonce_le hrun hi
        rw [heq] at hle
        omega
      · rw [hlanei] at hi heq
        rw [hlanej] at hj heq
        exact hold i j hi hj heq

/-- The number in a receipt is that of the payment under way. -/
theorem LaneStep.receipt_nonce (hlawful : payer.Lawful) {m m' : LaneState}
    (hstep : payer.LaneStep i c m m') (hanswer : payer.IsAnswer i c)
    (hreceipt : c.AcceptedReceipt) : payer.bodyNonce c.input.message.body = m.nonce := by
  cases hstep with
  | opened opens => exact absurd hanswer (hlawful.not_answer opens)
  | receipt _ _ body => rw [body, hlawful.bodyNonce_body]
  | bounce _ failure => exact absurd hreceipt (not_receipt_of_bounce failure)
  | other _ not_answer => exact absurd hanswer not_answer

/-- **No number is paid twice**, over all lanes. -/
theorem receipts_spent (hlawful : payer.Lawful) (hrun : payer.Runs calls s) :
    ((calls.filter (Call.AcceptedReceipt ·)).map fun c =>
      (payer.bodyNonce c.input.message.body).toNat).Nodup := by
  have hspent := hrun.spent Call.AcceptedReceipt
    (fun c => (payer.bodyNonce c.input.message.body).toNat) (fun s => (payer.counter s).toNat)
    (fun s n => ∃ i, (payer.lane s i).pending ≠ 0 ∧ (payer.lane s i).nonce.toNat = n)
    (fun es s n hrun hopen => ?_) fun es s c t hrun hmove => ?_
  · exact hspent.1
  · obtain ⟨i, hi, rfl⟩ := hopen
    exact nonce_le hrun hi
  · refine ⟨hmove.counter_le, ?_, fun hreceipt => ?_⟩
    · rintro n ⟨i, hi, rfl⟩
      rcases hmove.pending_cases hi with ⟨-, hnext, -⟩ | hlane
      · exact .inr (by omega)
      · rw [hlane] at hi ⊢
        exact .inl ⟨i, hi, rfl⟩
    · obtain ⟨i, hanswer⟩ := hmove.answered hreceipt.1
      obtain ⟨hpending, hclosed⟩ := (hmove.lanes i).closes hlawful hanswer
      rw [(hmove.lanes i).receipt_nonce hlawful hanswer hreceipt]
      refine ⟨⟨i, hpending, rfl⟩, ?_⟩
      rintro ⟨j, hj, heq⟩
      have hji : j ≠ i := by
        rintro rfl
        exact hj hclosed
      have hlane : payer.lane t j = payer.lane s j :=
        (hmove.lanes j).pending hj fun hopens => hlawful.not_answer hopens hanswer
      rw [hlane] at hj heq
      exact hji (nonces_distinct hlawful hrun hj hpending (BitVec.eq_of_toNat_eq heq))

/-- **No callback message is accepted twice.** -/
theorem answers_nodup (hlawful : payer.Lawful) (hrun : payer.Runs calls s) :
    ((calls.filter (Call.AcceptedCallback ·)).map fun c => c.input.message).Nodup := by
  refine hrun.invariant (I := fun es _ =>
    ((es.filter (Call.AcceptedCallback ·)).map fun c => c.input.message).Nodup)
    (fun _ _ => .nil) fun es s c t hrun hnodup hmove => ?_
  rw [List.filter_append]
  by_cases hcallback : c.AcceptedCallback
  · have hkept : [c].filter (Call.AcceptedCallback ·) = [c] := by simp [hcallback]
    rw [hkept, List.map_append, List.map_singleton, List.nodup_append]
    refine ⟨hnodup, List.nodup_singleton _, fun message hmem message' hmem' heq => ?_⟩
    rw [List.mem_singleton.mp hmem'] at heq
    obtain ⟨d, hd, rfl⟩ := List.mem_map.mp hmem
    obtain ⟨hdmem, hdsel⟩ := List.mem_filter.mp hd
    obtain ⟨i, hanswer⟩ := hmove.answered hcallback
    -- the sender of a message stands in the message, so both answer one lane
    have hcaller : d.input.caller = c.input.caller := by
      obtain ⟨pre, post, rfl⟩ := List.append_of_mem hdmem
      obtain ⟨s', t', -, hmove'⟩ := hrun.before
      rw [hmove'.wellFormed.caller_eq, hmove.wellFormed.caller_eq, heq]
    have hdanswer : payer.IsAnswer i d := ⟨of_decide_eq_true hdsel, hcaller.trans hanswer.2⟩
    have hle := (answers_ascend hlawful hrun i).2 d hdmem hdanswer
    have hlt := BitVec.lt_def.mp ((hmove.lanes i).later hlawful hanswer)
    rw [heq] at hle
    exact absurd hle (Nat.not_le.mpr hlt)
  · have hdropped : [c].filter (Call.AcceptedCallback ·) = [] := by simp [hcallback]
    rw [hdropped, List.append_nil]
    exact hnodup

end

end Payer

end AvmSdk.Contracts
