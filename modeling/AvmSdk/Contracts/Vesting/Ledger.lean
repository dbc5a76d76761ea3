import AvmSdk.Contracts.Vesting.Validity

/-!
# The ledger of a vesting contract

The operations on a valid state: time passes, the principal comes in, a stream is cancelled, a lane
is locked by a payment, and closed by its answer.

* `Progress.withLane`, `State.withProgress`: one lane and one stream changed.
  `State.Valid.withProgress`: a state stays valid if the changed stream follows the rules.
* `State.Valid.observed`, `State.Valid.deposited`, `State.Valid.cancelled`, `State.Valid.locked`,
  `State.Valid.settled`, `State.Valid.released`: each operation leads from a valid state to a valid
  state.
* `State.Valid.heldAmount_add`: what was funded is held, paid, or on its way.
-/

namespace AvmSdk.Vesting

open Wire Sdk Contracts Shares

/-! ## Lanes -/

namespace Lane

/-- The lane that waits for the answer to a payment.
Source: `process`, `lane.pending = amount`, `lane.nonce = nonce`, `lane.after_lt = ..` -/
def lock (lane : Lane) (amount : U128) (nonce blockLt : U64) : Lane :=
  { lane with pending := amount, nonce := nonce, afterLt := wordMax blockLt lane.lastLt }

/-- The lane whose payment was answered.
Source: `callback`, `Lane { last_lt, last_hash, ..Lane::default() }` -/
def closed (createdLt : U64) (hash : Bytes32) : Lane :=
  { default with lastLt := createdLt, lastHash := hash }

variable {lane : Lane} {amount : U128} {nonce next blockLt createdLt : U64} {hash : Bytes32}

/-- The rules of a lane hold under any later nonce. -/
theorem Ok.mono (h : lane.Ok nonce) (hle : nonce ≤ next) : lane.Ok next := by
  refine ⟨h.callback, h.free, fun hpending => ?_⟩
  obtain ⟨hne, hnonce, hlt⟩ := h.locked hpending
  exact ⟨hne, BitVec.le_trans hnonce hle, hlt⟩

/-- A payment under the next nonce keeps the rules of a lane. -/
theorem Ok.lock (h : lane.Ok nonce) (hsome : amount ≠ 0) (hnext : nonce.toNat + 1 = next.toNat) :
    (lane.lock amount next blockLt).Ok next := by
  refine ⟨h.callback, fun hnone => absurd hnone hsome, fun _ => ⟨?_, BitVec.le_refl _, ?_⟩⟩
  · show next ≠ 0
    rintro rfl
    exact absurd hnext (Nat.succ_ne_zero _)
  · show lane.lastLt ≤ wordMax blockLt lane.lastLt
    rw [BitVec.le_def, toNat_wordMax]
    exact le_max_right _ _

/-- A lane whose payment was answered keeps the rules. -/
theorem ok_closed (hlt : createdLt ≠ 0) (hhash : hash ≠ zeros 32) :
    (closed createdLt hash).Ok nonce := by
  refine ⟨?_, fun _ => ⟨rfl, rfl⟩, fun hno => absurd rfl hno⟩
  exact ⟨fun hzero => absurd hzero hlt, fun hzero => absurd hzero hhash⟩

end Lane

/-! ## Streams -/

namespace Progress

/-- The progress with another lane, and another amount paid over it. -/
def withLane (p : Progress) (k : Fin 2) (paid : U128) (lane : Lane) : Progress :=
  { p with
    claimed := if k = 0 then paid else p.claimed
    refunded := if k = 0 then p.refunded else paid
    lanes := Function.update p.lanes k lane }

/-- What has left a stream: paid and on its way. -/
def out (p : Progress) : ℕ :=
  p.claimed.toNat + p.refunded.toNat + ((p.lanes 0).pending.toNat + (p.lanes 1).pending.toNat)

variable {p : Progress} {k l : Fin 2} {paid : U128} {lane : Lane}

/-- The lane that is replaced has the new sum, -/
@[simp] theorem paid_withLane : (p.withLane k paid lane).paid k = paid := by
  unfold Progress.paid withLane
  by_cases hk : k = 0 <;> simp [hk]

/-- and the other lane keeps its own. -/
theorem paid_withLane_of_ne (h : l ≠ k) : (p.withLane k paid lane).paid l = p.paid l := by
  have hcases (m : Fin 2) : m = 0 ∨ m = 1 := by omega
  rcases hcases k with rfl | rfl <;> rcases hcases l with rfl | rfl
  · exact absurd rfl h
  · rfl
  · rfl
  · exact absurd rfl h

/-- The lane that is replaced, -/
@[simp] theorem lanes_withLane : (p.withLane k paid lane).lanes k = lane := Function.update_self ..

/-- and the other one, which stays. -/
theorem lanes_withLane_of_ne (h : l ≠ k) : (p.withLane k paid lane).lanes l = p.lanes l :=
  Function.update_of_ne h ..

/-- What has left a stream, after one lane changed. -/
theorem out_withLane : (p.withLane k paid lane).out + ((p.paid k).toNat + (p.lanes k).pending.toNat) =
    p.out + (paid.toNat + lane.pending.toNat) := by
  have hcases : k = 0 ∨ k = 1 := by omega
  rcases hcases with rfl | rfl
  · have hother : (p.withLane 0 paid lane).lanes 1 = p.lanes 1 :=
      lanes_withLane_of_ne Fin.zero_ne_one.symm
    show paid.toNat + p.refunded.toNat + (((p.withLane 0 paid lane).lanes 0).pending.toNat +
      ((p.withLane 0 paid lane).lanes 1).pending.toNat) + (p.claimed.toNat + _) = p.out + _
    rw [lanes_withLane, hother]
    unfold out
    omega
  · have hother : (p.withLane 1 paid lane).lanes 0 = p.lanes 0 :=
      lanes_withLane_of_ne Fin.zero_ne_one
    show p.claimed.toNat + paid.toNat + (((p.withLane 1 paid lane).lanes 0).pending.toNat +
      ((p.withLane 1 paid lane).lanes 1).pending.toNat) + (p.refunded.toNat + _) = p.out + _
    rw [lanes_withLane, hother]
    unfold out
    omega

end Progress

namespace State

/-- The state at the time of a call.
Source: `process`, `s.last_time = s.last_time.max(input.context.block_time)` -/
def observed (s : State) (now : U32) : State := { s with lastTime := wordMax s.lastTime now }

/-- The state with the principal. Source: `process`, `s.funded = true` -/
def deposited (s : State) : State := { s with funded := true }

/-- The state with the progress of one stream changed. -/
def withProgress (s : State) (i : Fin maxStreams) (p : Progress) (nonce : U64) : State :=
  { s with
    nonce := nonce
    progress := Function.update s.progress i p }

/-- The state after a cancellation. Source: `process`, `method == ids::CANCEL` -/
def cancelled (s : State) (i : Fin maxStreams) (cap : U128) : State :=
  s.withProgress i { s.progress i with cancelled := true, cutoff := s.lastTime, cap := cap } s.nonce

/-- The state after a payment was sent. -/
def locked (s : State) (i : Fin maxStreams) (k : Fin 2) (amount : U128) (nonce blockLt : U64) :
    State :=
  s.withProgress i ((s.progress i).withLane k ((s.progress i).paid k)
    (((s.progress i).lanes k).lock amount nonce blockLt)) nonce

/-- The state after the receipt of a payment. -/
def settled (s : State) (i : Fin maxStreams) (k : Fin 2) (createdLt : U64) (hash : Bytes32) :
    State :=
  s.withProgress i ((s.progress i).withLane k
    ((s.progress i).paid k + ((s.progress i).lanes k).pending) (Lane.closed createdLt hash)) s.nonce

/-- The state after the return of a payment. -/
def released (s : State) (i : Fin maxStreams) (k : Fin 2) (createdLt : U64) (hash : Bytes32) :
    State :=
  s.withProgress i ((s.progress i).withLane k ((s.progress i).paid k)
    (Lane.closed createdLt hash)) s.nonce

variable {s t : State} {i j : Fin maxStreams} {k : Fin 2} {p : Progress} {nonce : U64} {now : U32}

/-- The row that is replaced, -/
@[simp] theorem withProgress_self : (s.withProgress i p nonce).progress i = p :=
  Function.update_self ..

/-- and the others, which stay. -/
theorem withProgress_of_ne (h : j ≠ i) : (s.withProgress i p nonce).progress j = s.progress j :=
  Function.update_of_ne h ..

/-! ## Time -/

/-- **What is earned never shrinks** when time passes. -/
theorem entitledAt_le_observed (s : State) (i : Fin maxStreams) (now : U32) :
    s.entitledAt i s.lastTime ≤ (s.observed now).entitledAt i (s.observed now).lastTime := by
  rw [entitledAt_lastTime, entitledAt_lastTime]
  show _ ≤ if (s.progress i).cancelled then (s.progress i).cap.toNat
    else (s.config.streams i).releasedAt (wordMax s.lastTime now)
  by_cases hcancelled : (s.progress i).cancelled = true
  · rw [if_pos hcancelled, if_pos hcancelled]
  · rw [if_neg hcancelled, if_neg hcancelled]
    apply Stream.releasedAt_mono
    rw [BitVec.le_def, toNat_wordMax]
    exact le_max_left _ _

/-- The rules of a stream hold when time has passed. -/
theorem StreamOk.observed (h : s.StreamOk i) (now : U32) : (s.observed now).StreamOk i := by
  have hle : s.lastTime ≤ wordMax s.lastTime now := by
    rw [BitVec.le_def, toNat_wordMax]
    exact le_max_left _ _
  refine ⟨fun hcancelled => ?_, fun hrunning => ?_, h.lanes, fun k => ?_⟩
  · have hold := h.cancelled hcancelled
    exact ⟨hold.revocable, BitVec.le_trans hold.cutoff_le hle, hold.cutoff_lt, hold.cap_eq⟩
  · have hold := h.running hrunning
    exact ⟨hold.cutoff_eq, hold.cap_eq, hold.refunded_eq, hold.lane_eq⟩
  · have hcases : k = 0 ∨ k = 1 := by omega
    have hcovered := h.covered k
    rcases hcases with rfl | rfl
    · exact hcovered.trans (entitledAt_le_observed s i now)
    · rw [allotted_one] at hcovered ⊢
      by_cases hcancelled : (s.progress i).cancelled = true
      · -- the frozen amount does not depend on the time
        have hsame : (s.observed now).entitledAt i (s.observed now).lastTime =
            s.entitledAt i s.lastTime := by
          rw [entitledAt_lastTime, entitledAt_lastTime, if_pos hcancelled]
          exact if_pos hcancelled
        rw [hsame]
        exact hcovered
      · have hold := h.running (Bool.eq_false_iff.mpr hcancelled)
        show ((s.progress i).paid 1).toNat + ((s.progress i).lanes 1).pending.toNat ≤ _
        rw [Progress.paid_one, hold.refunded_eq, hold.lane_eq]
        exact Nat.zero_le _

/-- **Time** keeps the state valid. -/
theorem Valid.observed (h : s.Valid) (now : U32) : (s.observed now).Valid where
  config := h.config
  pristine := h.pristine
  streams i hi := (h.streams i hi).observed now
  idle := h.idle

/-- **The principal** keeps the state valid. -/
theorem Valid.deposited (h : s.Valid) : s.deposited.Valid where
  config := h.config
  pristine hno := absurd hno Bool.noConfusion
  streams i hi :=
    { cancelled := fun hc =>
        ⟨((h.streams i hi).cancelled hc).revocable, ((h.streams i hi).cancelled hc).cutoff_le,
          ((h.streams i hi).cancelled hc).cutoff_lt, ((h.streams i hi).cancelled hc).cap_eq⟩
      running := fun hr =>
        ⟨((h.streams i hi).running hr).cutoff_eq, ((h.streams i hi).running hr).cap_eq,
          ((h.streams i hi).running hr).refunded_eq, ((h.streams i hi).running hr).lane_eq⟩
      lanes := (h.streams i hi).lanes
      covered := (h.streams i hi).covered }
  idle := h.idle

/-! ## One stream -/

/-- What is earned depends on the time, the terms and the progress of the stream. -/
theorem entitledAt_congr (hconfig : t.config = s.config) (htime : t.lastTime = s.lastTime)
    (hcancelled : (t.progress i).cancelled = (s.progress i).cancelled)
    (hcap : (t.progress i).cap = (s.progress i).cap) : t.entitledAt i now = s.entitledAt i now := by
  unfold entitledAt
  rw [hconfig, htime, hcancelled, hcap]

/-- What a lane is allotted depends on the terms, the time and the cancellation alone. -/
theorem allotted_congr (hconfig : t.config = s.config) (htime : t.lastTime = s.lastTime)
    (hcancelled : (t.progress i).cancelled = (s.progress i).cancelled)
    (hcap : (t.progress i).cap = (s.progress i).cap) : t.allotted i k now = s.allotted i k now := by
  unfold allotted
  rw [entitledAt_congr hconfig htime hcancelled hcap, hconfig]

/-- The rules of a stream that was not touched. -/
theorem StreamOk.frame (h : s.StreamOk j) (hji : j ≠ i) (hnonce : s.nonce ≤ nonce) :
    (s.withProgress i p nonce).StreamOk j := by
  have hp : (s.withProgress i p nonce).progress j = s.progress j := withProgress_of_ne hji
  refine ⟨fun hcancelled => ?_, fun hrunning => ?_, fun k => ?_, fun k => ?_⟩
  · rw [hp] at hcancelled
    have hold := h.cancelled hcancelled
    refine ⟨hold.revocable, ?_, ?_, ?_⟩ <;> rw [hp]
    · exact hold.cutoff_le
    · exact hold.cutoff_lt
    · exact hold.cap_eq
  · rw [hp] at hrunning
    have hold := h.running hrunning
    refine ⟨?_, ?_, ?_, ?_⟩ <;> rw [hp]
    · exact hold.cutoff_eq
    · exact hold.cap_eq
    · exact hold.refunded_eq
    · exact hold.lane_eq
  · rw [hp]
    exact (h.lanes k).mono hnonce
  · have hsame : (s.withProgress i p nonce).allotted j k s.lastTime = s.allotted j k s.lastTime :=
      allotted_congr rfl rfl (by rw [hp]) (by rw [hp])
    show _ ≤ (s.withProgress i p nonce).allotted j k s.lastTime
    rw [hp, hsame]
    exact h.covered k

/-- **Changing one stream** keeps a state valid if the stream follows the rules. -/
theorem Valid.withProgress (h : s.Valid) (hfunded : s.funded = true) (hi : s.config.Active i)
    (hnonce : s.nonce ≤ nonce) (hp : (s.withProgress i p nonce).StreamOk i) :
    (s.withProgress i p nonce).Valid where
  config := h.config
  pristine hno := absurd (hfunded.symm.trans hno) Bool.noConfusion
  streams j hj := by
    by_cases hji : j = i
    · rw [hji]
      exact hp
    · exact (h.streams j hj).frame hji hnonce
  idle j hj := by
    have hji : j ≠ i := by
      rintro rfl
      exact hj hi
    rw [withProgress_of_ne hji]
    exact h.idle j hj

/-- A refund is under way only after a cancellation. -/
theorem StreamOk.cancelled_of_pending (h : s.StreamOk i)
    (hpending : ((s.progress i).lanes 1).pending ≠ 0) : (s.progress i).cancelled = true := by
  by_contra hno
  rw [(h.running (Bool.eq_false_iff.mpr hno)).lane_eq] at hpending
  exact hpending rfl

/-- **Changing one lane** keeps the rules of a stream if it stays within its part. -/
theorem StreamOk.withLane (h : s.StreamOk i) {paid : U128} {lane : Lane}
    (hk : k = 1 → (s.progress i).cancelled = true) (hnonce : s.nonce ≤ nonce)
    (hlane : lane.Ok nonce)
    (hcovered : paid.toNat + lane.pending.toNat ≤ s.allotted i k s.lastTime) :
    (s.withProgress i ((s.progress i).withLane k paid lane) nonce).StreamOk i := by
  refine ⟨fun hcancelled => ?_, fun hrunning => ?_, fun l => ?_, fun l => ?_⟩
  · rw [withProgress_self] at hcancelled
    have hold := h.cancelled hcancelled
    refine ⟨hold.revocable, ?_, ?_, ?_⟩ <;> rw [withProgress_self]
    · exact hold.cutoff_le
    · exact hold.cutoff_lt
    · exact hold.cap_eq
  · rw [withProgress_self] at hrunning
    have hold := h.running hrunning
    have hzero : k = 0 := by
      have hcases : k = 0 ∨ k = 1 := by omega
      rcases hcases with hk0 | hk1
      · exact hk0
      · exact absurd ((hk hk1).symm.trans hrunning) Bool.noConfusion
    refine ⟨?_, ?_, ?_, ?_⟩ <;> rw [withProgress_self]
    · exact hold.cutoff_eq
    · exact hold.cap_eq
    · show (if k = 0 then (s.progress i).refunded else paid) = 0
      rw [if_pos hzero]
      exact hold.refunded_eq
    · rw [hzero, Progress.lanes_withLane_of_ne Fin.zero_ne_one.symm]
      exact hold.lane_eq
  · rw [withProgress_self]
    by_cases hl : l = k
    · rw [hl, Progress.lanes_withLane]
      exact hlane
    · rw [Progress.lanes_withLane_of_ne hl]
      exact (h.lanes l).mono hnonce
  · have hsame : (s.withProgress i ((s.progress i).withLane k paid lane) nonce).allotted i l
        s.lastTime = s.allotted i l s.lastTime :=
      allotted_congr rfl rfl (by rw [withProgress_self]; rfl) (by rw [withProgress_self]; rfl)
    show _ ≤ State.allotted _ i l s.lastTime
    rw [withProgress_self, hsame]
    by_cases hl : l = k
    · rw [hl, Progress.paid_withLane, Progress.lanes_withLane]
      exact hcovered
    · rw [Progress.paid_withLane_of_ne hl, Progress.lanes_withLane_of_ne hl]
      exact h.covered l

/-- A payment under way keeps the state funded. -/
theorem Valid.funded_of_pending (h : s.Valid) (hpending : ((s.progress i).lanes k).pending ≠ 0) :
    s.funded = true := by
  by_contra hno
  rw [(h.pristine (Bool.eq_false_iff.mpr hno)).2 i] at hpending
  exact hpending rfl

/-- **A payment** of what is due keeps the state valid. -/
theorem Valid.locked (h : s.Valid) (hfunded : s.funded = true) (hi : s.config.Active i)
    (hidle : ((s.progress i).lanes k).pending = 0) {amount : U128} (hsome : amount ≠ 0)
    (hdue : s.due i k s.lastTime = .ok amount) (hnext : s.nonce.toNat + 1 = nonce.toNat)
    (blockLt : U64) : (s.locked i k amount nonce blockLt).Valid := by
  have hstream := h.streams i hi
  have hle := entitledAt_le hstream.cancelled s.lastTime
  obtain ⟨hk, hpart⟩ := (due_ok_iff hfunded (h.config.timed i hi) hle).mp hdue
  have hzero : (0 : U128).toNat = 0 := rfl
  rw [hidle] at hpart
  have hnonce : s.nonce ≤ nonce := BitVec.le_def.mpr (by omega)
  refine h.withProgress hfunded hi hnonce
    (hstream.withLane hk hnonce ((hstream.lanes k).lock hsome hnext) ?_)
  show ((s.progress i).paid k).toNat + amount.toNat ≤ _
  omega

/-- A stream whose payment was answered follows the rules. -/
theorem Valid.answered (h : s.Valid) (hi : s.config.Active i)
    (hpending : ((s.progress i).lanes k).pending ≠ 0) {paid : U128} {createdLt : U64}
    {hash : Bytes32} (hlt : createdLt ≠ 0) (hhash : hash ≠ zeros 32)
    (hpaid : paid.toNat ≤ ((s.progress i).paid k).toNat + ((s.progress i).lanes k).pending.toNat) :
    (s.withProgress i ((s.progress i).withLane k paid (Lane.closed createdLt hash)) s.nonce).Valid := by
  have hstream := h.streams i hi
  have hk : k = 1 → (s.progress i).cancelled = true := by
    rintro rfl
    exact hstream.cancelled_of_pending hpending
  refine h.withProgress (h.funded_of_pending hpending) hi (BitVec.le_refl _)
    (hstream.withLane hk (BitVec.le_refl _) (Lane.ok_closed hlt hhash) ?_)
  have hcovered := hstream.covered k
  show paid.toNat + 0 ≤ _
  omega

/-- What a lane has paid and is paying is a word. -/
theorem Valid.paid_add_lt (h : s.Valid) (hi : s.config.Active i) (k : Fin 2) :
    ((s.progress i).paid k).toNat + ((s.progress i).lanes k).pending.toNat < 2 ^ 128 := by
  have hstream := h.streams i hi
  have hcovered := hstream.covered k
  have hle := allotted_le (k := k) (entitledAt_le hstream.cancelled s.lastTime)
  have hlt := (s.config.streams i).total.isLt
  omega

/-- **A receipt** keeps the state valid. -/
theorem Valid.settled (h : s.Valid) (hi : s.config.Active i)
    (hpending : ((s.progress i).lanes k).pending ≠ 0) {createdLt : U64} {hash : Bytes32}
    (hlt : createdLt ≠ 0) (hhash : hash ≠ zeros 32) : (s.settled i k createdLt hash).Valid := by
  apply h.answered hi hpending hlt hhash
  rw [BitVec.toNat_add_of_lt (h.paid_add_lt hi k)]

/-- **A return** keeps the state valid. -/
theorem Valid.released (h : s.Valid) (hi : s.config.Active i)
    (hpending : ((s.progress i).lanes k).pending ≠ 0) {createdLt : U64} {hash : Bytes32}
    (hlt : createdLt ≠ 0) (hhash : hash ≠ zeros 32) : (s.released i k createdLt hash).Valid :=
  h.answered hi hpending hlt hhash (Nat.le_add_right _ _)

/-- **A cancellation** keeps the state valid. -/
theorem Valid.cancelled (h : s.Valid) (hfunded : s.funded = true) (hi : s.config.Active i)
    (hrevocable : (s.config.streams i).revocable = true)
    (hrunning : (s.progress i).cancelled = false)
    (hbefore : s.lastTime < (s.config.streams i).endTime) {cap : U128}
    (hcap : cap.toNat = (s.config.streams i).releasedAt s.lastTime) : (s.cancelled i cap).Valid := by
  have hstream := h.streams i hi
  have hold := hstream.running hrunning
  have hno : ¬ (s.progress i).cancelled = true := by
    rw [hrunning]
    exact Bool.noConfusion
  refine h.withProgress hfunded hi (BitVec.le_refl _)
    ⟨fun _ => ?_, fun hno => ?_, fun k => ?_, fun k => ?_⟩
  · refine ⟨hrevocable, ?_, ?_, ?_⟩ <;> rw [withProgress_self]
    · exact BitVec.le_refl _
    · exact hbefore
    · exact hcap
  · rw [withProgress_self] at hno
    exact absurd hno Bool.noConfusion
  · rw [withProgress_self]
    exact hstream.lanes k
  · rw [withProgress_self]
    have hcases : k = 0 ∨ k = 1 := by omega
    rcases hcases with rfl | rfl
    · -- the frozen amount is what was earned
      have hcovered := hstream.covered 0
      rw [allotted_zero, entitledAt_lastTime, if_neg hno, ← hcap] at hcovered
      rw [allotted_zero, entitledAt_lastTime, withProgress_self]
      exact hcovered
    · show (s.progress i).refunded.toNat + ((s.progress i).lanes 1).pending.toNat ≤ _
      rw [hold.refunded_eq, hold.lane_eq]
      exact Nat.zero_le _

/-! ## Books -/

/-- What has left all streams. -/
def outSum (s : State) : ℕ := ∑ i, (s.progress i).out

/-- **What was funded** is held, or has left. -/
theorem Valid.heldAmount_add (h : s.Valid) (hfunded : s.funded = true) :
    s.heldAmount + s.outSum = s.config.totalAmount := by
  have hle := sum_out_le h.streams h.idle
  have hout : s.outSum = s.claimedSum + s.refundedSum + s.pendingSum := by
    unfold outSum claimedSum refundedSum pendingSum
    rw [← Finset.sum_add_distrib, ← Finset.sum_add_distrib]
    rfl
  unfold heldAmount
  rw [if_pos hfunded]
  omega

/-- Nothing is held before the principal comes in. -/
theorem heldAmount_of_not_funded (hfunded : s.funded = false) : s.heldAmount = 0 := by
  unfold heldAmount
  rw [hfunded]
  rfl

/-- What has left all streams, after one changed. -/
theorem outSum_withProgress :
    (s.withProgress i p nonce).outSum + (s.progress i).out = s.outSum + p.out :=
  sum_update_add Progress.out s.progress i p

end State

end AvmSdk.Vesting
