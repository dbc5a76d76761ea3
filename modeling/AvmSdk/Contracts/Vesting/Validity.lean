import AvmSdk.Contracts.Vesting.State
import Mathlib.Algebra.BigOperators.Pi

/-!
# Valid vesting states

What `State::validate` accepts, in terms of exact numbers.

* `State.entitledAt`, `State.allotted`: what the payee of a stream has earned, and what each of the two
  lanes can carry. `State.due_ok_iff`: what is due is what is left of it.
* `State.Valid`: the rules of a stream, of its lanes and of its cancellation.
  `State.validate_ok_iff`. That the contract still holds what it owes follows from the other clauses
  (`State.sum_out_le`).
* `State.decode_ok_iff`: the decoder accepts exactly the encodings of valid states.
-/

namespace AvmSdk.Vesting

open Wire Sdk Contracts Shares

/-- What a stream has paid over a lane. -/
def Progress.paid (p : Progress) (k : Fin 2) : U128 := if k = 0 then p.claimed else p.refunded

/-- The payee's lane counts what was claimed, -/
@[simp] theorem Progress.paid_zero (p : Progress) : p.paid 0 = p.claimed := rfl

/-- and the owner's what was refunded. -/
@[simp] theorem Progress.paid_one (p : Progress) : p.paid 1 = p.refunded := rfl

/-- The rules of a lane, in a state with this nonce. -/
structure Lane.Ok (lane : Lane) (nonce : U64) : Prop where
  callback : lane.lastLt = 0 ↔ lane.lastHash = zeros 32
  free : lane.pending = 0 → lane.nonce = 0 ∧ lane.afterLt = 0
  locked : lane.pending ≠ 0 → lane.nonce ≠ 0 ∧ lane.nonce ≤ nonce ∧ lane.lastLt ≤ lane.afterLt

namespace State

/-- What the payee of a stream has earned at a time: a cancellation freezes it. -/
def entitledAt (s : State) (i : Fin maxStreams) (now : U32) : ℕ :=
  if (s.progress i).cancelled then (s.progress i).cap.toNat
  else (s.config.streams i).releasedAt (wordMax now s.lastTime)

/-- What a lane can carry in all: the earned part to the payee, the rest back. -/
def allotted (s : State) (i : Fin maxStreams) (k : Fin 2) (now : U32) : ℕ :=
  if k = 0 then s.entitledAt i now
  else (s.config.streams i).total.toNat - s.entitledAt i now

/-- The rules of a cancelled stream. -/
structure CancelOk (s : State) (i : Fin maxStreams) : Prop where
  revocable : (s.config.streams i).revocable = true
  cutoff_le : (s.progress i).cutoff ≤ s.lastTime
  cutoff_lt : (s.progress i).cutoff < (s.config.streams i).endTime
  cap_eq : (s.progress i).cap.toNat = (s.config.streams i).releasedAt (s.progress i).cutoff

/-- The rules of a stream that was not cancelled. -/
structure RunningOk (s : State) (i : Fin maxStreams) : Prop where
  cutoff_eq : (s.progress i).cutoff = 0
  cap_eq : (s.progress i).cap = 0
  refunded_eq : (s.progress i).refunded = 0
  lane_eq : (s.progress i).lanes 1 = Lane.default

/-- The rules of a stream. -/
structure StreamOk (s : State) (i : Fin maxStreams) : Prop where
  cancelled : (s.progress i).cancelled = true → s.CancelOk i
  running : (s.progress i).cancelled = false → s.RunningOk i
  lanes : ∀ k, ((s.progress i).lanes k).Ok s.nonce
  covered : ∀ k, ((s.progress i).paid k).toNat + ((s.progress i).lanes k).pending.toNat ≤
    s.allotted i k s.lastTime

/-- The states that pass the check. -/
structure Valid (s : State) : Prop where
  config : s.config.Valid
  pristine : s.funded = false → s.nonce = 0 ∧ ∀ i, s.progress i = Progress.default
  streams : ∀ i, s.config.Active i → s.StreamOk i
  idle : ∀ i, ¬ s.config.Active i → s.progress i = Progress.default

variable {s : State} {i : Fin maxStreams} {k : Fin 2} {now later : U32}

/-! ## What is due -/

/-- The payee is allotted what has been entitled, -/
@[simp] theorem allotted_zero : s.allotted i 0 now = s.entitledAt i now := rfl

/-- and the owner the rest. -/
@[simp] theorem allotted_one :
    s.allotted i 1 now = (s.config.streams i).total.toNat - s.entitledAt i now := rfl

/-- The cap is what is entitled at the time. -/
theorem cap_ok_iff (h : (s.config.streams i).Timed) {v : U128} :
    s.cap i now = .ok v ↔ v.toNat = s.entitledAt i now := by
  unfold cap entitledAt
  by_cases hcancelled : (s.progress i).cancelled = true
  · rw [if_pos hcancelled, if_pos hcancelled, Except.ok.injEq, ← BitVec.toNat_inj]
    exact eq_comm
  · rw [if_neg hcancelled, if_neg hcancelled, Stream.earned_ok_iff h]

/-- What is earned is a word. -/
theorem exists_entitled (s : State) (i : Fin maxStreams) (now : U32) :
    ∃ v : U128, v.toNat = s.entitledAt i now := by
  unfold entitledAt
  by_cases hcancelled : (s.progress i).cancelled = true
  · rw [if_pos hcancelled]
    exact ⟨_, rfl⟩
  · rw [if_neg hcancelled]
    exact exists_word_of_le (Stream.releasedAt_le _ _)

/-- The part of a lane in the words of the code. -/
theorem limit_ok_iff {cap rest paid : U128} (hcap : cap.toNat = s.entitledAt i now)
    (hle : s.entitledAt i now ≤ (s.config.streams i).total.toNat) :
    s.limit i k cap = .ok (rest, paid) ↔ (k = 1 → (s.progress i).cancelled = true) ∧
      rest.toNat = s.allotted i k now ∧ (s.progress i).paid k = paid := by
  have hcases : k = 0 ∨ k = 1 := by omega
  rcases hcases with rfl | rfl
  · have hlimit : s.limit i 0 cap = .ok (cap, (s.progress i).claimed) := rfl
    rw [hlimit, Except.ok.injEq, Prod.mk.injEq, allotted_zero, ← hcap, BitVec.toNat_inj,
      Progress.paid_zero, eq_comm (a := cap)]
    exact ⟨fun h => ⟨fun hno => absurd hno Fin.zero_ne_one, h⟩, fun h => h.2⟩
  · have hlimit : s.limit i 1 cap = (do
        failIf ((s.progress i).cancelled = false) ePhase
        let rest ← okOr (wordCheckedSub (s.config.streams i).total cap) eState
        pure (rest, (s.progress i).refunded)) := rfl
    simp only [hlimit, bind_ok_iff, failIf_ok_iff, exists_const, okOr_ok_iff,
      wordCheckedSub_eq_some, pure_ok_iff, Prod.mk.injEq, Bool.not_eq_false, hcap, allotted_one,
      Progress.paid_one, forall_const]
    refine and_congr_right fun _ => ?_
    constructor
    · rintro ⟨u, hu, rfl, rfl⟩
      exact ⟨by omega, rfl⟩
    · rintro ⟨hrest, rfl⟩
      exact ⟨rest, by omega, rfl, rfl⟩

/-- No part exceeds the total. -/
theorem allotted_le (hle : s.entitledAt i now ≤ (s.config.streams i).total.toNat) :
    s.allotted i k now ≤ (s.config.streams i).total.toNat := by
  unfold allotted
  by_cases hk : k = 0
  · rw [if_pos hk]
    exact hle
  · rw [if_neg hk]
    exact Nat.sub_le _ _

/-- **What is due** over a lane of a funded stream is what is left of its part. -/
theorem due_ok_iff (hfunded : s.funded = true) (h : (s.config.streams i).Timed)
    (hle : s.entitledAt i now ≤ (s.config.streams i).total.toNat) {v : U128} :
    s.due i k now = .ok v ↔ (k = 1 → (s.progress i).cancelled = true) ∧
      ((s.progress i).paid k).toNat + ((s.progress i).lanes k).pending.toNat + v.toNat =
        s.allotted i k now := by
  have hrunning : ¬ s.funded = false := by
    rw [hfunded]
    exact Bool.noConfusion
  unfold due
  rw [if_neg hrunning]
  simp only [bind_ok_iff, cap_ok_iff h, okOr_ok_iff,
    Option.bind_eq_some_iff, wordCheckedSub_eq_some]
  constructor
  · rintro ⟨cap, hcap, ⟨rest, paid⟩, hr, u, hu, hv⟩
    obtain ⟨hcancelled, hrest, rfl⟩ := (limit_ok_iff hcap hle).mp hr
    dsimp only at hu
    exact ⟨hcancelled, by omega⟩
  · rintro ⟨hcancelled, hv⟩
    obtain ⟨cap, hcap⟩ := s.exists_entitled i now
    obtain ⟨rest, hrest⟩ := exists_word_of_le (allotted_le (k := k) hle)
    obtain ⟨u, hu⟩ := exists_word_of_le (x := rest)
      (m := ((s.progress i).lanes k).pending.toNat + v.toNat) (by omega)
    refine ⟨cap, hcap, (rest, (s.progress i).paid k),
      (limit_ok_iff hcap hle).mpr ⟨hcancelled, hrest, rfl⟩, u, ?_, hu⟩
    dsimp only
    omega

/-! ## Streams -/

/-- What is earned now. -/
theorem entitledAt_lastTime (s : State) (i : Fin maxStreams) :
    s.entitledAt i s.lastTime = if (s.progress i).cancelled then (s.progress i).cap.toNat
      else (s.config.streams i).releasedAt s.lastTime := by
  have hmax : wordMax s.lastTime s.lastTime = s.lastTime := if_pos (BitVec.le_refl _)
  unfold entitledAt
  rw [hmax]

/-- What is earned is a part of the total. -/
theorem entitledAt_le (h : (s.progress i).cancelled = true → s.CancelOk i) (now : U32) :
    s.entitledAt i now ≤ (s.config.streams i).total.toNat := by
  unfold entitledAt
  by_cases hcancelled : (s.progress i).cancelled = true
  · rw [if_pos hcancelled, (h hcancelled).cap_eq]
    exact Stream.releasedAt_le _ _
  · rw [if_neg hcancelled]
    exact Stream.releasedAt_le _ _

/-- What the checks accept of a cancelled stream, -/
theorem checkCancelled_ok_iff (h : (s.config.streams i).Timed) {u : Unit} :
    s.checkCancelled i = .ok u ↔ s.CancelOk i := by
  simp only [checkCancelled, bind_ok_iff, failIf_ok_iff, exists_const, mapError_ok_iff,
    Stream.earned_ok_iff h, not_or, Bool.not_eq_false, BitVec.not_lt, BitVec.not_le, not_not]
  constructor
  · rintro ⟨⟨hrevocable, hle, hlt⟩, v, hv, hcap⟩
    exact ⟨hrevocable, hle, hlt, hcap ▸ hv⟩
  · intro h
    exact ⟨⟨h.revocable, h.cutoff_le, h.cutoff_lt⟩, _, h.cap_eq, rfl⟩

/-- of a running one, -/
theorem checkRunning_ok_iff {u : Unit} : s.checkRunning i = .ok u ↔ s.RunningOk i := by
  simp only [checkRunning, failIf_ok_iff, not_or, not_not]
  constructor
  · rintro ⟨hcutoff, hcap, hrefunded, hlane⟩
    exact ⟨hcutoff, hcap, hrefunded, hlane⟩
  · intro h
    exact ⟨h.cutoff_eq, h.cap_eq, h.refunded_eq, h.lane_eq⟩

/-- of either, -/
theorem checkCancellation_ok_iff (h : (s.config.streams i).Timed) {u : Unit} :
    s.checkCancellation i = .ok u ↔ ((s.progress i).cancelled = true → s.CancelOk i) ∧
      ((s.progress i).cancelled = false → s.RunningOk i) := by
  unfold checkCancellation
  cases hcancelled : (s.progress i).cancelled with
  | true => simp [checkCancelled_ok_iff h]
  | false => simp [checkRunning_ok_iff]

/-- and of a lane. -/
theorem checkLane_ok_iff {lane : Lane} {u : Unit} :
    s.checkLane lane = .ok u ↔ lane.Ok s.nonce := by
  have hpos : 0 < lane.lastLt ↔ lane.lastLt ≠ 0 := by
    rw [BitVec.lt_def, ne_eq, ← BitVec.toNat_inj]
    exact Nat.pos_iff_ne_zero
  have hcallback : ¬ (lane.lastLt = 0 ∧ lane.lastHash ≠ zeros 32 ∨
      0 < lane.lastLt ∧ lane.lastHash = zeros 32) ↔
        (lane.lastLt = 0 ↔ lane.lastHash = zeros 32) := by
    rw [hpos]
    tauto
  simp only [checkLane, bind_ok_iff, failIf_ok_iff, exists_const, hcallback]
  by_cases hpending : lane.pending = 0
  · simp only [hpending, if_true, failIf_ok_iff, not_or, not_not]
    constructor
    · rintro ⟨hlast, hnonce, hafter⟩
      exact ⟨hlast, fun _ => ⟨hnonce, hafter⟩, fun hno => absurd hpending hno⟩
    · intro h
      exact ⟨h.callback, h.free hpending⟩
  · simp only [hpending, if_false, failIf_ok_iff, not_or, BitVec.not_lt]
    constructor
    · rintro ⟨hlast, hlocked⟩
      exact ⟨hlast, fun hno => absurd hno hpending, fun _ => hlocked⟩
    · intro h
      exact ⟨h.callback, h.locked hpending⟩

/-- Nothing was paid over a lane that was never used. -/
theorem covered_of_default (h : s.progress i = Progress.default) (k : Fin 2) (now : U32) :
    ((s.progress i).paid k).toNat + ((s.progress i).lanes k).pending.toNat ≤
      s.allotted i k now := by
  have hpaid : ((s.progress i).paid k).toNat = 0 := by
    rw [h]
    unfold Progress.paid
    split_ifs <;> rfl
  have hpending : ((s.progress i).lanes k).pending.toNat = 0 := by
    rw [h]
    rfl
  omega

/-- What the checks accept of what is due, -/
theorem checkDue_ok_iff (hpristine : s.funded = false → s.progress i = Progress.default)
    (h : (s.config.streams i).Timed) (hcancelled : (s.progress i).cancelled = true → s.CancelOk i)
    (hrunning : (s.progress i).cancelled = false → s.RunningOk i) {u : Unit} :
    s.checkDue i = .ok u ↔ ∀ k, ((s.progress i).paid k).toNat +
      ((s.progress i).lanes k).pending.toNat ≤ s.allotted i k s.lastTime := by
  have hle := entitledAt_le hcancelled s.lastTime
  unfold checkDue
  by_cases hfunded : s.funded = true
  · have hdue {k : Fin 2} (hk : k = 1 → (s.progress i).cancelled = true) :
        (∃ v, s.due i k s.lastTime = .ok v) ↔ ((s.progress i).paid k).toNat +
          ((s.progress i).lanes k).pending.toNat ≤ s.allotted i k s.lastTime := by
      simp only [due_ok_iff hfunded h hle]
      constructor
      · rintro ⟨v, -, hv⟩
        omega
      · intro hpart
        obtain ⟨v, hv⟩ := exists_word_of_le (x := (s.config.streams i).total)
          (m := s.allotted i k s.lastTime - ((s.progress i).paid k).toNat -
            ((s.progress i).lanes k).pending.toNat)
          (by have := allotted_le (k := k) hle; omega)
        exact ⟨v, hk, by omega⟩
    have hzero := hdue (k := 0) fun hno => absurd hno Fin.zero_ne_one
    rw [if_pos hfunded, Fin.forall_fin_two, ← hzero]
    by_cases hc : (s.progress i).cancelled = true
    · rw [← hdue fun _ => hc]
      simp only [hc, if_true, bind_ok_iff, pure_ok_iff, exists_and_right, and_true]
    · have hno := hrunning (Bool.eq_false_iff.mpr hc)
      have hone : ((s.progress i).paid 1).toNat + ((s.progress i).lanes 1).pending.toNat ≤
          s.allotted i 1 s.lastTime := by
        rw [Progress.paid_one, hno.refunded_eq, hno.lane_eq]
        exact Nat.zero_le _
      simp only [hc, bind_ok_iff, exists_and_right, hone, and_true]
      exact and_iff_left rfl
  · rw [if_neg hfunded, pure_ok_iff]
    refine iff_of_true rfl fun k => ?_
    exact covered_of_default (hpristine (Bool.eq_false_iff.mpr hfunded)) k _

/-- and of all that belongs to a stream. -/
theorem checkStream_ok_iff (hpristine : s.funded = false → s.progress i = Progress.default)
    (h : (s.config.streams i).Timed) {u : Unit} : s.checkStream i = .ok u ↔ s.StreamOk i := by
  simp only [checkStream, bind_ok_iff, checkCancellation_ok_iff h, checkLane_ok_iff, exists_const]
  constructor
  · rintro ⟨⟨hcancelled, hrunning⟩, hzero, hone, hdue⟩
    exact ⟨hcancelled, hrunning, Fin.forall_fin_two.mpr ⟨hzero, hone⟩,
      (checkDue_ok_iff hpristine h hcancelled hrunning).mp hdue⟩
  · intro hs
    exact ⟨⟨hs.cancelled, hs.running⟩, hs.lanes 0, hs.lanes 1,
      (checkDue_ok_iff hpristine h hs.cancelled hs.running).mpr hs.covered⟩

/-! ## Sums -/

/-- What was claimed from all streams. -/
def claimedSum (s : State) : ℕ := ∑ i, (s.progress i).claimed.toNat

/-- What was refunded from all streams. -/
def refundedSum (s : State) : ℕ := ∑ i, (s.progress i).refunded.toNat

/-- What is on its way. -/
def pendingSum (s : State) : ℕ :=
  ∑ i, (((s.progress i).lanes 0).pending.toNat + ((s.progress i).lanes 1).pending.toNat)

/-- What the contract holds: funded, not paid, and not on its way. -/
def heldAmount (s : State) : ℕ :=
  if s.funded then s.config.totalAmount - s.claimedSum - s.refundedSum - s.pendingSum else 0

/-- What one stream adds to the three sums. -/
def accounted (s : State) (i : Fin maxStreams) : ℕ × ℕ × ℕ :=
  ((s.progress i).claimed.toNat, (s.progress i).refunded.toNat,
    ((s.progress i).lanes 0).pending.toNat + ((s.progress i).lanes 1).pending.toNat)

/-- What the sums count of a row. -/
theorem addProgress_ok_iff {t u : U128 × U128 × U128} :
    s.addProgress t i = .ok u ↔ True ∧ (u.1.toNat, u.2.1.toNat, u.2.2.toNat) =
      (t.1.toNat, t.2.1.toNat, t.2.2.toNat) + s.accounted i := by
  obtain ⟨a, b, c⟩ := u
  simp only [addProgress, bind_ok_iff, okOr_ok_iff, Option.bind_eq_some_iff,
    wordCheckedAdd_eq_some, pure_ok_iff, Prod.mk.injEq, accounted, Prod.mk_add_mk, true_and]
  constructor
  · rintro ⟨_, ha, _, hb, _, ⟨v, hv, hc⟩, rfl, rfl, rfl⟩
    omega
  · rintro ⟨ha, hb, hc⟩
    obtain ⟨v, hv⟩ := exists_word_of_le (x := c)
      (m := t.2.2.toNat + ((s.progress i).lanes 0).pending.toNat) (by omega)
    exact ⟨a, ha.symm, b, hb.symm, c, ⟨v, hv.symm, by omega⟩, rfl, rfl, rfl⟩

/-- The sums over the streams, in the words of the code. -/
theorem totals_ok_iff (hidle : ∀ i, ¬ s.config.Active i → s.progress i = Progress.default)
    {a b c : U128} : s.totals = .ok (a, b, c) ↔
      a.toNat = s.claimedSum ∧ b.toNat = s.refundedSum ∧ c.toNat = s.pendingSum := by
  have htallies : Tallies fun t : U128 × U128 × U128 => (t.1.toNat, t.2.1.toNat, t.2.2.toNat) :=
    (tallies_toNat 128).prod ((tallies_toNat 128).prod (tallies_toNat 128))
  have hsum : ((firstIndices maxStreams s.config.count.toNat).map s.accounted).sum =
      (s.claimedSum, s.refundedSum, s.pendingSum) := by
    have hzero (i : Fin maxStreams) (hi : s.config.count.toNat ≤ i.val) : s.accounted i = 0 := by
      unfold accounted
      rw [hidle i (Nat.not_lt.mpr hi)]
      rfl
    rw [sum_firstIndices, sum_ite_of_zero hzero]
    simp only [Prod.ext_iff, Prod.fst_sum, Prod.snd_sum]
    exact ⟨rfl, rfl, rfl⟩
  have hstep (t : U128 × U128 × U128) (i : Fin maxStreams) (u : U128 × U128 × U128) :
      s.addProgress t i = .ok u ↔ True ∧ (u.1.toNat, u.2.1.toNat, u.2.2.toNat) =
        (t.1.toNat, t.2.1.toNat, t.2.2.toNat) + s.accounted i := addProgress_ok_iff
  have hfold := foldlM_total_zero_iff htallies hstep (t := (0, 0, 0)) rfl
    (firstIndices maxStreams s.config.count.toNat) (u := (a, b, c))
  rw [hsum] at hfold
  unfold totals
  rw [hfold]
  simp only [implies_true, true_and, Prod.mk.injEq]

/-- What a stream has paid and is paying is not more than its total. -/
theorem StreamOk.out_le (h : s.StreamOk i) :
    (s.progress i).claimed.toNat + (s.progress i).refunded.toNat +
      (((s.progress i).lanes 0).pending.toNat + ((s.progress i).lanes 1).pending.toNat) ≤
        (s.config.streams i).total.toNat := by
  have hzero := h.covered 0
  have hone := h.covered 1
  have hle := entitledAt_le h.cancelled s.lastTime
  rw [Progress.paid_zero, allotted_zero] at hzero
  rw [Progress.paid_one, allotted_one] at hone
  omega

/-- **The streams pay no more than their totals.** -/
theorem sum_out_le (hstreams : ∀ i, s.config.Active i → s.StreamOk i)
    (hidle : ∀ i, ¬ s.config.Active i → s.progress i = Progress.default) :
    s.claimedSum + s.refundedSum + s.pendingSum ≤ s.config.totalAmount := by
  unfold claimedSum refundedSum pendingSum Config.totalAmount
  rw [← Finset.sum_add_distrib, ← Finset.sum_add_distrib]
  apply Finset.sum_le_sum
  intro i _
  by_cases hi : s.config.Active i
  · exact (hstreams i hi).out_le
  · rw [hidle i hi]
    exact Nat.zero_le _

/-- **`held`** is defined, and exact. -/
theorem exists_held (hc : s.config.Valid) (hstreams : ∀ i, s.config.Active i → s.StreamOk i)
    (hidle : ∀ i, ¬ s.config.Active i → s.progress i = Progress.default) :
    ∃ v, s.held = .ok v ∧ v.toNat = s.heldAmount := by
  unfold held heldAmount
  by_cases hfunded : s.funded = true
  · obtain ⟨total, htotal, hvalue⟩ := hc.exists_total
    have hle := sum_out_le hstreams hidle
    obtain ⟨a, ha⟩ := exists_word_of_le (x := total) (m := s.claimedSum) (by omega)
    obtain ⟨b, hb⟩ := exists_word_of_le (x := total) (m := s.refundedSum) (by omega)
    obtain ⟨c, hpending⟩ := exists_word_of_le (x := total) (m := s.pendingSum) (by omega)
    obtain ⟨u, hu⟩ := exists_word_of_le (x := total)
      (m := s.config.totalAmount - s.claimedSum) (by omega)
    obtain ⟨w, hw⟩ := exists_word_of_le (x := total)
      (m := s.config.totalAmount - s.claimedSum - s.refundedSum) (by omega)
    obtain ⟨v, hv⟩ := exists_word_of_le (x := total)
      (m := s.config.totalAmount - s.claimedSum - s.refundedSum - s.pendingSum) (by omega)
    have htotals := (totals_ok_iff hidle).mpr ⟨ha, hb, hpending⟩
    have hno : ¬ s.funded = false := Bool.eq_false_iff.not.mpr (not_not.mpr hfunded)
    refine ⟨v, ?_, by rw [if_pos hfunded]; exact hv⟩
    rw [if_neg hno]
    simp only [bind_ok_iff, okOr_ok_iff, Option.bind_eq_some_iff, wordCheckedSub_eq_some]
    refine ⟨(a, b, c), htotals, total, htotal, u, ?_, w, ?_, ?_⟩
    · dsimp only
      omega
    · dsimp only
      omega
    · dsimp only
      omega
  · rw [if_pos (Bool.eq_false_iff.mpr hfunded), if_neg hfunded]
    exact ⟨0, rfl, rfl⟩

/-! ## Validation -/

/-- **Validation of a state.** -/
theorem validate_ok_iff {u : Unit} : s.validate = .ok u ↔ s.Valid := by
  simp only [validate, bind_ok_iff, mapError_ok_iff, Config.validate_ok_iff, failIf_ok_iff,
    exists_const, forM_ok_iff, mem_firstIndices, pure_ok_iff]
  constructor
  · rintro ⟨hc, hpristine, hstreams, hidle, -⟩
    push Not at hpristine hidle
    refine ⟨hc, hpristine, fun i hi => ?_, fun i hi => hidle i (Nat.not_lt.mp hi)⟩
    exact (checkStream_ok_iff (fun hno => (hpristine hno).2 i) (hc.timed i hi)).mp (hstreams i hi)
  · intro h
    obtain ⟨held, hheld, -⟩ := exists_held h.config h.streams h.idle
    refine ⟨h.config, ?_, fun i hi => ?_, ?_, held, hheld, trivial⟩
    · push Not
      exact h.pristine
    · exact (checkStream_ok_iff (fun hno => (h.pristine hno).2 i) (h.config.timed i hi)).mpr
        (h.streams i hi)
    · push Not
      exact fun i hi => h.idle i (Nat.not_lt.mpr hi)

/-! ## Encoding -/

/-- The lengths of the fields of a lane, -/
theorem lengths_encodeLane (l : Lane) :
    [toLe l.pending, toLe l.nonce, toLe l.afterLt, toLe l.lastLt, l.lastHash.val].map
      List.length = [16, 8, 8, 8, 32] := by
  simp

/-- and that of the lane. -/
@[simp] theorem length_encodeLane (l : Lane) : (encodeLane l).length = 72 :=
  length_flatten_of_lengths (lengths_encodeLane l)

/-- The lengths of the fields of a row, -/
theorem lengths_encodeProgress (p : Progress) :
    [[if p.cancelled then (1 : U8) else 0], (zeros 3).val, toLe p.cutoff, toLe p.cap, toLe p.claimed,
      toLe p.refunded, encodeLane (p.lanes 0), encodeLane (p.lanes 1)].map List.length =
      [1, 3, 4, 16, 16, 16, 72, 72] := by
  simp

/-- and that of the row. -/
@[simp] theorem length_encodeProgress (p : Progress) : (encodeProgress p).length = rowBytes :=
  length_flatten_of_lengths (lengths_encodeProgress p)

/-- The lengths of the fields of a state, -/
theorem lengths_encode (s : State) :
    [s.config.encode, [if s.funded then (1 : U8) else 0], (zeros 3).val, toLe s.lastTime,
      toLe s.nonce, (List.ofFn fun i => encodeProgress (s.progress i)).flatten].map List.length =
      [1656, 1, 3, 4, 8, 1600] := by
  have hprogress : (List.ofFn fun i => encodeProgress (s.progress i)).flatten.length = 8 * 200 :=
    length_flatten_rows fun i => length_encodeProgress _
  simp only [List.map_cons, List.map_nil, hprogress, length_toLe, length_bytesN,
    List.length_singleton, Config.length_encode]

/-- and that of them all. -/
@[simp] theorem length_encode (s : State) : s.encode.length = stateBytes :=
  length_flatten_of_lengths (lengths_encode s)

section

variable [Target]

/-- A lane is decoded exactly when its encoding stands at its offset. -/
theorem decodeLane_ok_iff {b : Bytes} {o : ℕ} (hlen : o + 200 ≤ b.length) (hsmall : b.length < 2 ^ 32)
    {l : Lane} : decodeLane b o k = .ok l ↔
      encodeLane l = b.extract (o + 56 + k * 72) (o + 56 + k * 72 + 72) := by
  have hk := k.isLt
  have hrow : o + 56 + k.val * 72 + 72 ≤ b.length := by omega
  have hparts := flatten_eq_extract_iff (lengths_encodeLane l) hrow
  simp only [splitParts, List.cons.injEq, and_true, List.sum_cons, List.sum_nil,
    Nat.reduceAdd] at hparts
  simp only [decodeLane, bind_ok_iff, pure_ok_iff, encodeLane, hparts]
  generalize o + 56 + k.val * 72 = a at hrow ⊢
  simp only [Nat.add_assoc, Nat.reduceAdd]
  have hword (w d : ℕ) (hw : 8 ∣ w) (hd : d + w / 8 ≤ 72) {x : BitVec w} :
      wordAt eArgs w b (a + d) = .ok x ↔ toLe x = b.extract (a + d) (a + (d + w / 8)) := by
    rw [← Nat.add_assoc]
    exact wordAt_ok_iff hsmall hw (by omega)
  have hhash {h : Bytes32} : arrayAt eArgs 32 b (a + 40) = .ok h ↔
      h.val = b.extract (a + 40) (a + 72) := arrayAt_ok_iff hsmall (by omega)
  have hpending := hword 128 0 (by decide) (by decide) (x := l.pending)
  have hnonce := hword 64 16 (by decide) (by decide) (x := l.nonce)
  have hafter := hword 64 24 (by decide) (by decide) (x := l.afterLt)
  have hlast := hword 64 32 (by decide) (by decide) (x := l.lastLt)
  constructor
  · rintro ⟨_, h1, _, h2, _, h3, _, h4, _, h5, rfl⟩
    exact ⟨hpending.mp h1, hnonce.mp h2, hafter.mp h3, hlast.mp h4, hhash.mp h5⟩
  · rintro ⟨h1, h2, h3, h4, h5⟩
    exact ⟨l.pending, hpending.mpr h1, l.nonce, hnonce.mpr h2, l.afterLt, hafter.mpr h3, l.lastLt,
      hlast.mpr h4, l.lastHash, hhash.mpr h5, rfl⟩

omit [Target] in
/-- A row of the table of progress that is read back. -/
theorem encodeProgress_eq_extract_iff {b : Bytes} {o : ℕ} (hlen : o + 200 ≤ b.length)
    {p : Progress} : encodeProgress p = b.extract o (o + 200) ↔
      (if p.cancelled then 1 else 0) = b.getD o 0 ∧ (zeros 3).val = b.extract (o + 1) (o + 4) ∧
        toLe p.cutoff = b.extract (o + 4) (o + 8) ∧ toLe p.cap = b.extract (o + 8) (o + 24) ∧
        toLe p.claimed = b.extract (o + 24) (o + 40) ∧
        toLe p.refunded = b.extract (o + 40) (o + 56) ∧
        encodeLane (p.lanes 0) = b.extract (o + 56) (o + 128) ∧
        encodeLane (p.lanes 1) = b.extract (o + 128) (o + 200) := by
  have hone : b.extract o (o + 1) = [b.getD o 0] := extract_one (by omega)
  have h := flatten_eq_extract_iff (lengths_encodeProgress p) hlen
  simpa only [encodeProgress, splitParts, List.cons.injEq, and_true, Nat.add_assoc, Nat.reduceAdd,
    List.sum_cons, List.sum_nil, hone] using h

/-- A row of the table of progress is decoded exactly when it is the encoding of the progress. -/
theorem decodeProgress_ok_iff {b : Bytes} (hlen : b.length = stateBytes) {p : Progress} :
    decodeProgress b i = .ok p ↔
      encodeProgress p = b.extract (1672 + i * 200) (1672 + i * 200 + 200) := by
  have hi := i.isLt
  have hsmall : b.length < 2 ^ 32 := by rw [hlen]; decide
  have hrow : 1672 + i.val * 200 + 200 ≤ b.length := by
    rw [hlen]
    unfold stateBytes maxStreams at *
    omega
  rw [encodeProgress_eq_extract_iff hrow]
  simp only [decodeProgress, stateBase, rowBytes, bind_ok_iff, failIf_ok_iff, pure_ok_iff,
    exists_const, not_or, not_not, tabulateM_ok_iff]
  generalize 1672 + i.val * 200 = o at hrow ⊢
  simp only [decodeLane_ok_iff hrow hsmall, Fin.forall_fin_two, Fin.val_zero, Fin.val_one,
    Nat.zero_mul, Nat.one_mul, Nat.add_zero, Nat.add_assoc, Nat.reduceAdd]
  have hword (w d : ℕ) (hw : 8 ∣ w) (hd : d + w / 8 ≤ 200) {x : BitVec w} :
      wordAt eArgs w b (o + d) = .ok x ↔ toLe x = b.extract (o + d) (o + d + w / 8) :=
    wordAt_ok_iff hsmall hw (by omega)
  have hcutoff := hword 32 4 (by decide) (by decide) (x := p.cutoff)
  have hcap := hword 128 8 (by decide) (by decide) (x := p.cap)
  have hclaimed := hword 128 24 (by decide) (by decide) (x := p.claimed)
  have hrefunded := hword 128 40 (by decide) (by decide) (x := p.refunded)
  constructor
  · rintro ⟨⟨hflag, hpad⟩, _, h1, _, h2, _, h3, _, h4, lanes, ⟨h5, h6⟩, rfl⟩
    exact ⟨flag_eq_iff.mpr ⟨hflag, rfl⟩, hpad.symm, hcutoff.mp h1, hcap.mp h2, hclaimed.mp h3,
      hrefunded.mp h4, h5, h6⟩
  · rintro ⟨h0, hpad, h1, h2, h3, h4, h5, h6⟩
    obtain ⟨hflag, hcancelled⟩ := flag_eq_iff.mp h0
    exact ⟨⟨hflag, hpad.symm⟩, p.cutoff, hcutoff.mpr h1, p.cap, hcap.mpr h2, p.claimed,
      hclaimed.mpr h3, p.refunded, hrefunded.mpr h4, p.lanes, ⟨h5, h6⟩, by rw [hcancelled]⟩

omit [Target] in
/-- A word is the encoding of a state exactly when each part stands at its offset. -/
theorem encode_eq_iff {b : Bytes} (hlen : b.length = stateBytes) :
    s.encode = b ↔
      s.config.encode = b.extract 0 1656 ∧ (if s.funded then 1 else 0) = b.getD 1656 0 ∧
        (zeros 3).val = b.extract 1657 1660 ∧ toLe s.lastTime = b.extract 1660 1664 ∧
        toLe s.nonce = b.extract 1664 1672 ∧
        ∀ i : Fin maxStreams,
          encodeProgress (s.progress i) = b.extract (1672 + i * 200) (1672 + i * 200 + 200) := by
  have hprogress : (List.ofFn fun i => encodeProgress (s.progress i)).flatten =
      b.extract 1672 3272 ↔ ∀ i : Fin maxStreams,
        encodeProgress (s.progress i) = b.extract (1672 + i * 200) (1672 + i * 200 + 200) :=
    flatten_rows_iff (fun i => length_encodeProgress (s.progress i)) (by rw [hlen]; decide)
  have hfunded : b.extract 1656 1657 = [b.getD 1656 0] := extract_one (by rw [hlen]; decide)
  rw [encode, flatten_eq_iff (lengths_encode s) hlen]
  simp only [splitParts, List.cons.injEq, and_true, Nat.reduceAdd, hfunded, hprogress]

/-- **Decoding a state.** -/
theorem decode_ok_iff {b : Bytes} : decode b = .ok s ↔ s.encode = b ∧ s.Valid := by
  by_cases hlen : b.length = stateBytes
  · have hsmall : b.length < 2 ^ 32 := by rw [hlen]; decide
    have htime {x : U32} : wordAt eArgs 32 b 1660 = .ok x ↔ toLe x = b.extract 1660 1664 :=
      wordAt_ok_iff hsmall (by decide) (by rw [hlen]; decide)
    have hnonce {x : U64} : wordAt eArgs 64 b 1664 = .ok x ↔ toLe x = b.extract 1664 1672 :=
      wordAt_ok_iff hsmall (by decide) (by rw [hlen]; decide)
    simp only [decode, hlen, ne_eq, not_true_eq_false, false_or, bind_ok_iff, failIf_ok_iff,
      mapError_ok_iff, pure_ok_iff, exists_const, not_or, not_not, tabulateM_ok_iff,
      Config.decode_ok_iff, decodeProgress_ok_iff hlen, htime, hnonce, validate_ok_iff,
      encode_eq_iff hlen]
    constructor
    · rintro ⟨⟨hflag, hpad⟩, config, ⟨hconfig, -⟩, lastTime, htime, nonce, hnonce, progress,
        hprogress, hvalid, rfl⟩
      exact ⟨⟨hconfig, flag_eq_iff.mpr ⟨hflag, rfl⟩, hpad.symm, htime, hnonce, hprogress⟩, hvalid⟩
    · rintro ⟨⟨hconfig, hfunded, hpad, htime, hnonce, hprogress⟩, hvalid⟩
      obtain ⟨hflag, hfunded⟩ := flag_eq_iff.mp hfunded
      refine ⟨⟨hflag, hpad.symm⟩, s.config, ⟨hconfig, hvalid.config⟩, s.lastTime, htime, s.nonce,
        hnonce, s.progress, hprogress, ?_⟩
      rw [hfunded]
      exact ⟨hvalid, rfl⟩
  · have hno : s.encode ≠ b := fun h => hlen (h ▸ length_encode s)
    simp only [decode, hlen, ne_eq, not_false_eq_true, true_or, bind_ok_iff, failIf_ok_iff,
      not_true_eq_false, false_and, exists_false, hno]

end

end State

end AvmSdk.Vesting
