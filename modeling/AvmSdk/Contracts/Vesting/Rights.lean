import AvmSdk.Contracts.Vesting.Conservation

/-!
# Rights

What the payee of a stream has earned never shrinks, and a cancellation takes nothing from it.

* `Grows`, `Step.grows`: what a step never takes back. `grows_of_runs`: between any two states of a
  run.
* `IsCancel`, `cancels_once`: a stream is cancelled once, and a refund comes after it.
* `Cancels`: what a cancellation needs and what it leaves.
* `rights_never_shrink`.
-/

namespace AvmSdk.Vesting

open Wire Sdk Contracts

/-- What the payee of a stream has earned: the frozen cap of a cancelled stream, or what is vested. -/
def State.entitlement (s : State) (i : Fin maxStreams) : ℕ := s.entitledAt i s.lastTime

/-- **What is never taken back**, from a state to a later one. -/
structure Grows (s t : State) : Prop where
  config_eq : t.config = s.config
  funded : s.funded = true → t.funded = true
  lastTime_le : s.lastTime ≤ t.lastTime
  entitlement_le : ∀ i, s.entitlement i ≤ t.entitlement i
  claimed_le : ∀ i, (s.progress i).claimed.toNat ≤ (t.progress i).claimed.toNat
  refunded_le : ∀ i, (s.progress i).refunded.toNat ≤ (t.progress i).refunded.toNat
  /-- A cancellation is final, and freezes the entitlement. -/
  frozen : ∀ i, (s.progress i).cancelled = true →
    (t.progress i).cancelled = true ∧ t.entitlement i = s.entitlement i

namespace Grows

variable {s t u : State}

/-- A state grows from itself, -/
theorem refl (s : State) : Grows s s where
  config_eq := rfl
  funded h := h
  lastTime_le := BitVec.le_refl _
  entitlement_le _ := le_rfl
  claimed_le _ := le_rfl
  refunded_le _ := le_rfl
  frozen _ h := ⟨h, rfl⟩

/-- and growth composes. -/
theorem trans (h : Grows s t) (h' : Grows t u) : Grows s u where
  config_eq := h'.config_eq.trans h.config_eq
  funded hs := h'.funded (h.funded hs)
  lastTime_le := BitVec.le_trans h.lastTime_le h'.lastTime_le
  entitlement_le i := (h.entitlement_le i).trans (h'.entitlement_le i)
  claimed_le i := (h.claimed_le i).trans (h'.claimed_le i)
  refunded_le i := (h.refunded_le i).trans (h'.refunded_le i)
  frozen i hs := by
    obtain ⟨ht, hsame⟩ := h.frozen i hs
    obtain ⟨hu, hsame'⟩ := h'.frozen i ht
    exact ⟨hu, hsame'.trans hsame⟩

end Grows

/-! ## Steps -/

namespace State

variable {s : State} {i : Fin maxStreams} {k : Fin 2}

/-- Time takes nothing back. -/
theorem grows_observed (s : State) (now : U32) : Grows s (s.observed now) where
  config_eq := rfl
  funded h := h
  lastTime_le := by
    show s.lastTime ≤ wordMax s.lastTime now
    rw [BitVec.le_def, toNat_wordMax]
    exact le_max_left _ _
  entitlement_le i := entitledAt_le_observed s i now
  claimed_le _ := le_rfl
  refunded_le _ := le_rfl
  frozen i hs := by
    refine ⟨hs, ?_⟩
    unfold entitlement
    rw [entitledAt_lastTime, entitledAt_lastTime, if_pos hs]
    exact if_pos hs

/-- A change of one stream takes nothing back if the stream does not. -/
theorem grows_withProgress {p : Progress} {nonce : U64}
    (hentitled : s.entitlement i ≤ (s.withProgress i p nonce).entitlement i)
    (hclaimed : (s.progress i).claimed.toNat ≤ p.claimed.toNat)
    (hrefunded : (s.progress i).refunded.toNat ≤ p.refunded.toNat)
    (hfrozen : (s.progress i).cancelled = true → p.cancelled = true ∧
      (s.withProgress i p nonce).entitlement i = s.entitlement i) :
    Grows s (s.withProgress i p nonce) := by
  have hframe {j : Fin maxStreams} (hji : j ≠ i) :
      (s.withProgress i p nonce).entitlement j = s.entitlement j :=
    entitledAt_congr rfl rfl (by rw [withProgress_of_ne hji]) (by rw [withProgress_of_ne hji])
  refine ⟨rfl, fun h => h, BitVec.le_refl _, fun j => ?_, fun j => ?_, fun j => ?_, fun j hs => ?_⟩
  · by_cases hji : j = i
    · rw [hji]
      exact hentitled
    · rw [hframe hji]
  · by_cases hji : j = i
    · rw [hji, withProgress_self]
      exact hclaimed
    · rw [withProgress_of_ne hji]
  · by_cases hji : j = i
    · rw [hji, withProgress_self]
      exact hrefunded
    · rw [withProgress_of_ne hji]
  · by_cases hji : j = i
    · rw [hji, withProgress_self]
      rw [hji] at hs
      exact hfrozen hs
    · rw [withProgress_of_ne hji, hframe hji]
      exact ⟨hs, rfl⟩

/-- A change of one lane takes nothing back if it pays no less. -/
theorem grows_withLane {paid : U128} {lane : Lane} {nonce : U64}
    (hpaid : ((s.progress i).paid k).toNat ≤ paid.toNat) :
    Grows s (s.withProgress i ((s.progress i).withLane k paid lane) nonce) := by
  have hsame : (s.withProgress i ((s.progress i).withLane k paid lane) nonce).entitlement i =
      s.entitlement i :=
    entitledAt_congr rfl rfl (by rw [withProgress_self]; rfl) (by rw [withProgress_self]; rfl)
  have hcases : k = 0 ∨ k = 1 := by omega
  refine grows_withProgress hsame.ge ?_ ?_ fun hs => ⟨hs, hsame⟩
  · rcases hcases with rfl | rfl
    · exact hpaid
    · exact le_rfl
  · rcases hcases with rfl | rfl
    · exact le_rfl
    · exact hpaid

/-- A cancellation takes nothing back: it freezes what is vested. -/
theorem grows_cancelled {cap : U128} (hrunning : (s.progress i).cancelled = false)
    (hcap : cap.toNat = (s.config.streams i).releasedAt s.lastTime) :
    Grows s (s.cancelled i cap) := by
  have hno : ¬ (s.progress i).cancelled = true := by
    rw [hrunning]
    exact Bool.noConfusion
  refine grows_withProgress ?_ le_rfl le_rfl fun hs => absurd hs hno
  unfold entitlement
  rw [entitledAt_lastTime, entitledAt_lastTime, if_neg hno, withProgress_self, ← hcap]
  exact le_rfl

end State

section

variable [Target] {x : MessageInput} {s t : State} {o : Option Transfer} {c : Call}
  {start : MessageInput} {calls pre post : List Call} {b : Bytes} {i : Fin maxStreams} {k : Fin 2}

/-- **A call takes nothing back.** -/
theorem Act.grows (hact : Act x s t o) (h : s.Valid) : Grows s t := by
  cases hact with
  | topup => exact .refl s
  | status => exact .refl s
  | fund ask ok =>
      refine ⟨rfl, fun _ => rfl, BitVec.le_refl _, fun _ => ?_, fun _ => le_rfl, fun _ => le_rfl,
        fun _ hs => ⟨hs, ?_⟩⟩
      · exact (State.entitledAt_congr rfl rfl rfl rfl).ge
      · exact State.entitledAt_congr rfl rfl rfl rfl
  | cancel ask free ok => exact State.grows_cancelled ok.running ok.cap_eq
  | pay => exact State.grows_withLane le_rfl
  | receipt ret ok arrived =>
      apply State.grows_withLane
      rw [BitVec.toNat_add_of_lt (h.paid_add_lt ok.active _)]
      exact Nat.le_add_right _ _
  | bounce => exact State.grows_withLane le_rfl

/-- Every step grows the rights. -/
theorem Step.grows (hstep : Step x s t o) (h : s.Valid) : Grows s t :=
  (s.grows_observed x.context.blockTime).trans (Act.grows hstep (h.observed _))

/-- **Between any two states of a run**, nothing is taken back. -/
theorem grows_of_runs (hrun : vesting.Runs start (pre ++ post) b) {t : State}
    (ht : State.decode b = .ok t) :
    ∃ b₀ s, vesting.Runs start pre b₀ ∧ State.decode b₀ = .ok s ∧ Grows s t := by
  obtain ⟨b₀, hpre, hgrows⟩ := hrun.since
    (R := fun b b' => ∀ t, State.decode b' = .ok t → ∃ s, State.decode b = .ok s ∧ Grows s t)
    (fun b t ht => ⟨t, ht, .refl t⟩)
    (fun b b' b'' h h' u hu => by
      obtain ⟨t, ht, hgrows'⟩ := h' u hu
      obtain ⟨s, hs, hgrows⟩ := h t ht
      exact ⟨s, hs, hgrows.trans hgrows'⟩)
    fun es b c b' hrun hcall t ht => by
      obtain ⟨s, -, hvalid, rfl⟩ := vesting_implements.runs hrun
      obtain ⟨u, hmove, hu, rfl⟩ := vesting_implements.moves hvalid rfl hcall
      have heq : u = t := by
        have hdecode := State.Valid.decode_encode hu
        exact Except.ok.inj (hdecode.symm.trans ht)
      refine ⟨s, hvalid.decode_encode, ?_⟩
      rcases moves_cases hmove with ⟨o, hc⟩ | ⟨rfl, -⟩
      · exact heq ▸ hc.step.grows hvalid
      · exact heq ▸ .refl u
  obtain ⟨s, hs, hgrows⟩ := hgrows t ht
  exact ⟨b₀, s, hpre, hs, hgrows⟩

/-! ## Cancellations -/

/-- An accepted cancellation of a stream. -/
def IsCancel (i : Fin maxStreams) (c : Call) : Prop :=
  c.AcceptedMethod Ids.cancel ∧ c.input.message.body = [BitVec.ofNat 8 i.val]

instance (i : Fin maxStreams) : DecidablePred (IsCancel i) :=
  fun _ => inferInstanceAs (Decidable (_ ∧ _))

/-- What a call does to the flag of a cancellation. -/
theorem Performs.cancelled_eq (hc : Performs State.encode Step s c t o) (i : Fin maxStreams) :
    (if (t.progress i).cancelled then 1 else 0) =
      (if (s.progress i).cancelled then 1 else 0) + if IsCancel i c then 1 else 0 := by
  have hstep : Act c.input (s.observed c.input.context.blockTime) t o := hc.step
  have hprogress : (s.observed c.input.context.blockTime).progress = s.progress := rfl
  rw [← hprogress]
  generalize s.observed c.input.context.blockTime = s at hstep
  have hother (hno : ¬ IsCancel i c) (hsame : (t.progress i).cancelled = (s.progress i).cancelled) :
      (if (t.progress i).cancelled then 1 else 0) =
        (if (s.progress i).cancelled then 1 else 0) + if IsCancel i c then 1 else 0 := by
    rw [if_neg hno, hsame, Nat.add_zero]
  have hlane {j : Fin maxStreams} {k : Fin 2} {paid : U128} {lane : Lane} {nonce : U64} :
      ((s.withProgress j ((s.progress j).withLane k paid lane) nonce).progress i).cancelled =
        (s.progress i).cancelled := by
    by_cases hij : i = j
    · rw [hij, State.withProgress_self]
      rfl
    · rw [State.withProgress_of_ne hij]
  cases hstep with
  | topup ask => exact hother (fun h => not_acceptedMethod_of_asks ask (by decide) h.1) rfl
  | fund ask => exact hother (fun h => not_acceptedMethod_of_asks ask (by decide) h.1) rfl
  | status ask => exact hother (fun h => not_acceptedMethod_of_asks ask (by decide) h.1) rfl
  | @pay _ j k _ _ ask =>
      have hne : payMethod k ≠ Ids.cancel := by
        have hcases : k = 0 ∨ k = 1 := by omega
        rcases hcases with rfl | rfl <;> decide
      exact hother (fun h => not_acceptedMethod_of_asks ask hne h.1) hlane
  | receipt ret => exact hother (fun h => not_acceptedMethod_of_returns ret h.1) hlane
  | bounce ret => exact hother (fun h => not_acceptedMethod_of_returns ret h.1) hlane
  | @cancel _ j cap ask free ok =>
      have hmethod : c.AcceptedMethod Ids.cancel := ⟨hc.accepted, ask.not_callback, ask.method_eq⟩
      by_cases hij : i = j
      · have hcancel : IsCancel i c := ⟨hmethod, hij ▸ ok.body⟩
        have hflag : ((s.cancelled j cap).progress j).cancelled = true := by
          unfold State.cancelled
          rw [State.withProgress_self]
        rw [if_pos hcancel, hij, ok.running, hflag]
        rfl
      · refine hother (fun h => hij (eq_of_body h.2 ok.body)) ?_
        unfold State.cancelled
        rw [State.withProgress_of_ne hij]

/-- **A stream is cancelled once**, and then it says so. -/
theorem cancels_once (hrun : vestingMachine.Runs start calls s) (i : Fin maxStreams) :
    (calls.filter (IsCancel i ·)).length = if (s.progress i).cancelled then 1 else 0 := by
  have hbooks := hrun.balance (fun s => if (s.progress i).cancelled then 1 else 0)
    (fun c => if IsCancel i c then 1 else 0) (fun _ => 0)
    (fun s hs => by rw [hs.2.state_eq]; rfl) fun es s c t _ hmove => by
      rcases moves_cases hmove with ⟨o, hc⟩ | ⟨rfl, hignored⟩
      · exact Performs.cancelled_eq hc i
      · rw [if_neg fun hc : IsCancel i c => hignored.refused hc.1.1]
  have hsum : (calls.map fun _ => 0).sum = 0 := by simp
  rw [hsum, Nat.add_zero, List.sum_map_ite] at hbooks
  simpa using hbooks.symm

/-- An accepted refund of a stream. -/
def IsRefund (i : Fin maxStreams) (c : Call) : Prop :=
  c.AcceptedMethod Ids.refund ∧ c.input.message.body = [BitVec.ofNat 8 i.val]

/-- An accepted callback would be accepted in every state with the same lanes. -/
theorem callback_frame {t : State} (hs : s.Valid) (ht : t.Valid) (hconfig : t.config = s.config)
    (hlanes : ∀ i k, (t.progress i).lanes k = (s.progress i).lanes k) (hstate : x.state = s.encode)
    (hcallback : x.message.isCallback) (haccepted : (vesting.processMessage x).statusCode = 0) :
    (vesting.processMessage { x with state := t.encode }).statusCode = 0 := by
  obtain ⟨out, hok⟩ :=
    exists_ok_of_statusCode (fun e he => (process_raises hs hstate e he).1) haccepted
  obtain ⟨u, o, e, hstep, -⟩ := process_ok hs hstate hok
  -- the same conditions, in the other state
  have hmoved {source : AccountAddress} {message : InternalMessage} {h : CallbackHeader}
      {i : Fin maxStreams} {k : Fin 2}
      (ok : CallbackOk x (s.observed x.context.blockTime) source message h i k) :
      CallbackOk { x with state := t.encode } (t.observed x.context.blockTime) source message h
        i k := by
    have hlane := hlanes i k
    have hpending := ok.pending
    have hafter := ok.after
    have hlater := ok.later
    have hfresh := ok.hash_fresh
    have hactive := ok.active
    have hsource := ok.source_eq
    unfold State.observed at hpending hafter hlater hfresh hactive hsource
    dsimp only at hpending hafter hlater hfresh hactive hsource
    rw [← hlane] at hpending hafter hlater hfresh
    rw [← hconfig] at hactive hsource
    exact ⟨hactive, hsource, ok.method_eq, ok.no_request, ok.cause, ok.hash_ne_zero, hpending,
      hafter, hlater, hfresh⟩
  have hdone {u : State} (hstep : Step { x with state := t.encode } t u none) :
      (vesting.processMessage { x with state := t.encode }).statusCode = 0 := by
    obtain ⟨e, he⟩ := processMessage_of_step ht rfl hstep
    rw [he]
    rfl
  cases hstep with
  | topup ask => exact absurd hcallback ask.not_callback
  | fund ask => exact absurd hcallback ask.not_callback
  | status ask => exact absurd hcallback ask.not_callback
  | cancel ask => exact absurd hcallback ask.not_callback
  | pay ask => exact absurd hcallback ask.not_callback
  | @receipt _ _ _ i k ret ok arrived =>
      have hlane := hlanes i k
      have hbody := arrived.body
      unfold State.observed at hbody
      dsimp only at hbody
      rw [← hlane] at hbody
      exact hdone (.receipt ⟨ret.is_callback, ret.caller, ret.message_eq, ret.header⟩ (hmoved ok)
        ⟨arrived.success, arrived.fees, hbody⟩)
  | @bounce _ _ _ i k ret ok returned =>
      have hlane := hlanes i k
      have hcurrencies := returned.currencies
      unfold State.observed at hcurrencies
      dsimp only at hcurrencies
      rw [← hlane] at hcurrencies
      exact hdone (.bounce ⟨ret.is_callback, ret.caller, ret.message_eq, ret.header⟩ (hmoved ok)
        ⟨returned.failure, returned.some, hcurrencies, returned.body⟩)

/-- **What a cancellation needs and leaves.** -/
structure Cancels (s t : State) (c : Call) (i : Fin maxStreams) : Prop where
  active : s.config.Active i
  body : c.input.message.body = [BitVec.ofNat 8 i.val]
  /-- The owner signs it. -/
  signed : c.input.caller = .external s.config.owner
  revocable : (s.config.streams i).revocable = true
  running : (s.progress i).cancelled = false
  /-- The stream has not ended, at the time that the call leaves. -/
  before : t.lastTime < (s.config.streams i).endTime
  cancelled : (t.progress i).cancelled = true
  lanes_eq : ∀ k, (t.progress i).lanes k = (s.progress i).lanes k
  paid_eq : ∀ k, (t.progress i).paid k = (s.progress i).paid k
  /-- A callback that would have been accepted before is accepted after. -/
  settles : ∀ x : MessageInput, x.state = s.encode → x.message.isCallback →
    (vesting.processMessage x).statusCode = 0 →
      (vesting.processMessage { x with state := t.encode }).statusCode = 0

/-- An accepted cancellation. -/
theorem cancels_of_performs (h : s.Valid) (ht : t.Valid)
    (hc : Performs State.encode Step s c t o) (hmethod : c.AcceptedMethod Ids.cancel) :
    ∃ i, Cancels s t c i := by
  cases hc.step with
  | topup ask => exact absurd hmethod (not_acceptedMethod_of_asks ask (by decide))
  | fund ask => exact absurd hmethod (not_acceptedMethod_of_asks ask (by decide))
  | status ask => exact absurd hmethod (not_acceptedMethod_of_asks ask (by decide))
  | @pay _ i k _ _ ask =>
      have hne : payMethod k ≠ Ids.cancel := by
        have hcases : k = 0 ∨ k = 1 := by omega
        rcases hcases with rfl | rfl <;> decide
      exact absurd hmethod (not_acceptedMethod_of_asks ask hne)
  | receipt ret => exact absurd hmethod (not_acceptedMethod_of_returns ret)
  | bounce ret => exact absurd hmethod (not_acceptedMethod_of_returns ret)
  | @cancel actor i cap ask free ok =>
      have hself : (((s.observed c.input.context.blockTime).cancelled i cap).progress i) =
          { s.progress i with
            cancelled := true
            cutoff := (s.observed c.input.context.blockTime).lastTime
            cap := cap } := State.withProgress_self
      have hlanes (j : Fin maxStreams) (k : Fin 2) :
          ((((s.observed c.input.context.blockTime).cancelled i cap).progress j).lanes k) =
            (s.progress j).lanes k := by
        by_cases hji : j = i
        · rw [hji, hself]
        · unfold State.cancelled
          rw [State.withProgress_of_ne hji]
          rfl
      have howner : s.config.owner = actor := ok.owner
      refine ⟨i, ok.active, ok.body, ?_, ok.revocable, ok.running, ok.before, ?_, hlanes i,
        fun k => ?_, fun x hstate hcallback haccepted => ?_⟩
      · rw [ask.caller, howner]
      · rw [hself]
      · rw [hself]
        rfl
      · exact callback_frame h ht rfl hlanes hstate hcallback haccepted

/-- A refund needs a cancellation. -/
theorem cancelled_of_refund (h : s.Valid) (hc : Performs State.encode Step s c t o)
    (hmethod : c.AcceptedMethod Ids.refund) :
    ∃ i, c.input.message.body = [BitVec.ofNat 8 i.val] ∧ s.config.Active i ∧
      (s.progress i).cancelled = true := by
  have hv := h.observed c.input.context.blockTime
  cases hc.step with
  | topup ask => exact absurd hmethod (not_acceptedMethod_of_asks ask (by decide))
  | fund ask => exact absurd hmethod (not_acceptedMethod_of_asks ask (by decide))
  | status ask => exact absurd hmethod (not_acceptedMethod_of_asks ask (by decide))
  | cancel ask => exact absurd hmethod (not_acceptedMethod_of_asks ask (by decide))
  | receipt ret => exact absurd hmethod (not_acceptedMethod_of_returns ret)
  | bounce ret => exact absurd hmethod (not_acceptedMethod_of_returns ret)
  | @pay _ i k amount nonce ask free ok =>
      have hcases : k = 0 ∨ k = 1 := by omega
      rcases hcases with rfl | rfl
      · exact absurd hmethod (not_acceptedMethod_of_asks ask (by decide))
      · have hle := State.entitledAt_le (hv.streams i ok.active).cancelled
          (s.observed c.input.context.blockTime).lastTime
        obtain ⟨hcancelled, -⟩ :=
          (State.due_ok_iff ok.funded (hv.config.timed i ok.active) hle).mp ok.due
        exact ⟨i, ok.body, ok.active, hcancelled rfl⟩

/-- A message to the account that takes the refunds of a stream needs a cancellation. -/
theorem cancelled_of_sent (h : s.Valid) (hc : Performs State.encode Step s c t o)
    (hi : s.config.Active i) {intent : OutboundIntent} (hintent : intent ∈ c.output.outboundIntents)
    (hto : intent.destination = (s.config.streams i).refund) : (s.progress i).cancelled = true := by
  have hv := h.observed c.input.context.blockTime
  rw [hc.outbound] at hintent
  cases hc.step with
  | topup | fund | status | cancel | receipt | bounce => exact absurd hintent List.not_mem_nil
  | @pay _ j k amount nonce ask free ok =>
      rw [Option.map_some, Option.toList_some, List.mem_singleton] at hintent
      rw [hintent] at hto
      have hsame : (s.config.streams j).destination k = (s.config.streams i).destination 1 := hto
      obtain ⟨rfl, rfl⟩ := h.config.destination_injective ok.active hi hsame
      have hle := State.entitledAt_le (hv.streams j ok.active).cancelled
        (s.observed c.input.context.blockTime).lastTime
      exact ((State.due_ok_iff ok.funded (hv.config.timed j ok.active) hle).mp ok.due).1 rfl

/-! ## Every run -/

/-- **The rights of payees and owner** after some calls. -/
structure Rights (start : MessageInput) (calls : List Call) (t : State) : Prop where
  /-- From every earlier state on, nothing was taken back. -/
  grows : ∀ pre post, calls = pre ++ post →
    ∃ b s, vesting.Runs start pre b ∧ State.decode b = .ok s ∧ Grows s t
  /-- What is earned is claimed, on its way, or due. -/
  due : t.funded = true → ∀ i, t.config.Active i → ∃ due, t.due i 0 t.lastTime = .ok due ∧
    t.entitlement i = (t.progress i).claimed.toNat + ((t.progress i).lanes 0).pending.toNat +
      due.toNat
  /-- Every stream is cancelled at most once. -/
  once : ∀ i, (calls.filter (IsCancel i ·)).length ≤ 1
  cancels : ∀ c ∈ calls, c.AcceptedMethod Ids.cancel →
    ∃ i s u, State.decode c.before = .ok s ∧ State.decode c.after = .ok u ∧ Cancels s u c i
  /-- A refund comes after a cancellation. -/
  refunds : ∀ pre c post, calls = pre ++ c :: post → c.AcceptedMethod Ids.refund →
    ∃ i, IsRefund i c ∧ ∃ d ∈ pre, IsCancel i d
  /-- Nothing is sent back from a stream that cannot be revoked. -/
  irrevocable : ∀ i, t.config.Active i → (t.config.streams i).revocable = false →
    ∀ c ∈ calls, ∀ intent ∈ c.output.outboundIntents,
      intent.destination ≠ (t.config.streams i).refund

/-- **The rights never shrink.** -/
theorem rights_never_shrink (hrun : vesting.Runs start calls b) :
    ∃ t, State.decode b = .ok t ∧ Rights start calls t := by
  obtain ⟨t, hruns, hvalid, rfl⟩ := vesting_implements.runs hrun
  refine ⟨t, hvalid.decode_encode, ?_, fun hfunded i hi => ?_, fun i => ?_, fun c hc hmethod => ?_,
    fun pre c post hcalls hmethod => ?_, fun i hi hrevocable c hc intent hintent hto => ?_⟩
  · rintro pre post rfl
    exact grows_of_runs hrun hvalid.decode_encode
  · have hstream := hvalid.streams i hi
    have hle := State.entitledAt_le hstream.cancelled t.lastTime
    have hcovered := hstream.covered 0
    rw [Progress.paid_zero, State.allotted_zero] at hcovered
    obtain ⟨due, hdue⟩ := exists_word_of_le (x := (t.config.streams i).total)
      (m := t.entitledAt i t.lastTime -
        ((t.progress i).claimed.toNat + ((t.progress i).lanes 0).pending.toNat)) (by omega)
    refine ⟨due, (State.due_ok_iff hfunded (hvalid.config.timed i hi) hle).mpr ⟨?_, ?_⟩, ?_⟩
    · exact fun hno => absurd hno Fin.zero_ne_one
    · rw [Progress.paid_zero, State.allotted_zero]
      omega
    · unfold State.entitlement
      omega
  · rw [cancels_once hruns i]
    split_ifs
    · exact le_rfl
    · exact Nat.zero_le 1
  · obtain ⟨pre, s, u, -, hs, hu, hcase⟩ := runs_call vesting_implements hruns hc
    rcases hcase with ⟨o, hperforms⟩ | ⟨-, hignored⟩
    · obtain ⟨i, hcancels⟩ := cancels_of_performs hs hu hperforms hmethod
      refine ⟨i, s, u, ?_, ?_, hcancels⟩
      · rw [hperforms.before]
        exact State.Valid.decode_encode hs
      · rw [hperforms.after]
        exact State.Valid.decode_encode hu
    · exact absurd hmethod.1 hignored.refused
  · rw [hcalls] at hruns
    obtain ⟨s, u, hpre, hmove⟩ := hruns.before
    have hs := vesting_implements.stored_of_runs hpre
    rcases moves_cases hmove with ⟨o, hperforms⟩ | ⟨-, hignored⟩
    · obtain ⟨i, hbody, -, hcancelled⟩ := cancelled_of_refund hs hperforms hmethod
      have honce := cancels_once hpre i
      rw [if_pos hcancelled] at honce
      obtain ⟨d, hd⟩ := List.exists_mem_of_length_pos (honce ▸ Nat.one_pos)
      obtain ⟨hmem, hcancel⟩ := List.mem_filter.mp hd
      exact ⟨i, ⟨hmethod, hbody⟩, d, hmem, of_decide_eq_true hcancel⟩
    · exact absurd hmethod.1 hignored.refused
  · obtain ⟨pre, post, rfl⟩ := List.append_of_mem hc
    obtain ⟨s, u, hpre, hmove⟩ := hruns.before
    have hs := vesting_implements.stored_of_runs hpre
    rw [(terms_of_runs hruns).unique (terms_of_runs hpre)] at hi hrevocable hto
    rcases moves_cases hmove with ⟨o, hperforms⟩ | ⟨-, hignored⟩
    · have hcancelled := cancelled_of_sent hs hperforms hi hintent hto
      have hyes := ((hs.streams i hi).cancelled hcancelled).revocable
      exact absurd (hyes.symm.trans hrevocable) Bool.noConfusion
    · rw [hignored.outbound] at hintent
      exact absurd hintent List.not_mem_nil

end

/-- A contract after a cancellation and its refund. -/
theorem rights_never_shrink_sample :
    letI := Target.wasm32
    (∃ c ∈ sampleHistory, c.AcceptedMethod Ids.cancel) ∧
      (∃ c ∈ sampleHistory, c.AcceptedMethod Ids.refund) ∧
      ∃ t, State.decode sampleRetried.encode = .ok t ∧ Rights sampleStart sampleHistory t := by
  let _ := Target.wasm32
  obtain ⟨-, -, hcancel, hrefund⟩ := sampleHistory_accepts
  exact ⟨hcancel, hrefund, rights_never_shrink sampleHistoryRun⟩

end AvmSdk.Vesting
