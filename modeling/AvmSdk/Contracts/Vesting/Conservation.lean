import AvmSdk.Contracts.Vesting.Deployment

/-!
# Conservation

No stream pays more than its total, and a vesting contract accounts for every unit of its principal,
whatever calls it gets.

* `Step.keeps_books`: what a single call does to the balance.
* `IsLargest`, `Step.largest`: the time that the contract remembers.
* `streams_accounted`: what the state says after any calls.
-/

namespace AvmSdk.Vesting

open Wire Sdk Contracts

section

variable [Target] {s t : State} {c : Call} {o : Option Transfer} {x : MessageInput}
  {i : Fin maxStreams} {k : Fin 2}

/-! ## Books -/

omit [Target] in
/-- The principal that a payment carries. -/
theorem carried_payment {nonce : U64} {amount : U128} :
    carried principalCurrencyId (some (payment s i k nonce amount)) = amount.toNat := by
  simp [carried, payment]

omit [Target] in
/-- What is held does not depend on the time. -/
theorem State.heldAmount_observed (s : State) (now : U32) :
    (s.observed now).heldAmount = s.heldAmount := rfl

omit [Target] in
/-- What has left all streams, after one lane changed. -/
theorem State.outSum_withLane {paid : U128} {lane : Lane} {nonce : U64} :
    (s.withProgress i ((s.progress i).withLane k paid lane) nonce).outSum +
      (((s.progress i).paid k).toNat + ((s.progress i).lanes k).pending.toNat) =
        s.outSum + (paid.toNat + lane.pending.toNat) := by
  have hsum : (s.withProgress i ((s.progress i).withLane k paid lane) nonce).outSum +
      (s.progress i).out = s.outSum + ((s.progress i).withLane k paid lane).out :=
    State.outSum_withProgress
  have hout : ((s.progress i).withLane k paid lane).out +
      (((s.progress i).paid k).toNat + ((s.progress i).lanes k).pending.toNat) =
        (s.progress i).out + (paid.toNat + lane.pending.toNat) := Progress.out_withLane
  omega

/-- The principal that a returned payment brings. -/
theorem BounceOk.attached {message : InternalMessage} {h : CallbackHeader}
    (ok : BounceOk s message h i k) (hwf : message.extra.WellFormed) :
    amountOf principalCurrencyId message.extra.items = ((s.progress i).lanes k).pending.toNat := by
  rw [CurrencyAmounts.amountOf_eq hwf]
  cases hfind : message.extra.items.find? (·.currencyId = principalCurrencyId) with
  | none =>
      obtain ⟨c, hc, hid⟩ := ok.some
      exact absurd (decide_eq_true hid) (List.find?_eq_none.mp hfind c hc)
  | some c =>
      have hfound := List.find?_some hfind
      have hid : c.currencyId = principalCurrencyId := of_decide_eq_true hfound
      rcases ok.currencies c (List.mem_of_find?_eq_some hfind) with ⟨-, hamount⟩ | ⟨hshell, -⟩
      · show c.amount.toNat = _
        rw [hamount]
      · exact absurd (hid.symm.trans hshell) (by decide)

/-- **The books of a step.** -/
theorem Step.keeps_books (h : s.Valid) (hc : Performs State.encode Step s c t o) :
    t.heldAmount + carried principalCurrencyId o =
      s.heldAmount + gained Ids.fund principalCurrencyId c := by
  have hv := h.observed c.input.context.blockTime
  have ht := hc.step.valid h
  rw [← State.heldAmount_observed s c.input.context.blockTime]
  have hstep : Act c.input (s.observed c.input.context.blockTime) t o := hc.step
  generalize s.observed c.input.context.blockTime = s at hv hstep ⊢
  have hnone : carried principalCurrencyId none = 0 := rfl
  have hzero : (0 : U128).toNat = 0 := rfl
  cases hstep with
  | topup ask => rw [gained_of_asks hc.accepted ask, if_neg (by decide)]; rfl
  | status ask => rw [gained_of_asks hc.accepted ask, if_neg (by decide)]; rfl
  | @fund _ total ask ok =>
      rw [gained_of_asks hc.accepted ask, if_pos rfl, hnone, Nat.add_zero,
        State.heldAmount_of_not_funded ok.fresh, Nat.zero_add]
      have hitems := (principalValue_eq_some hc.wellFormed.message_ok.extra_ok).mp ok.value
      have hattached : c.attached principalCurrencyId = total.toNat := by
        unfold Call.attached
        rw [hitems, amountOf_cons, if_pos rfl, amountOf_nil, Nat.add_zero]
      have hbooks := ht.heldAmount_add rfl
      have hout : s.deposited.outSum = 0 := by
        refine Finset.sum_eq_zero fun i _ => ?_
        show (s.progress i).out = 0
        rw [(hv.pristine ok.fresh).2 i]
        rfl
      rw [hout, Nat.add_zero] at hbooks
      rw [hattached, ok.total_eq]
      exact hbooks
  | @cancel _ i cap ask free ok =>
      rw [gained_of_asks hc.accepted ask, if_neg (by decide), hnone]
      have hs := hv.heldAmount_add ok.funded
      have hbooks := ht.heldAmount_add ok.funded
      have hout : (s.cancelled i cap).outSum + (s.progress i).out =
          s.outSum + (s.progress i).out := State.outSum_withProgress
      have hconfig : (s.cancelled i cap).config = s.config := rfl
      rw [hconfig] at hbooks
      omega
  | @pay _ i k amount nonce ask free ok =>
      have hother : payMethod k ≠ Ids.fund := by
        have hcases : k = 0 ∨ k = 1 := by omega
        rcases hcases with rfl | rfl <;> decide
      rw [gained_of_asks hc.accepted ask, if_neg hother, carried_payment]
      have hs := hv.heldAmount_add ok.funded
      have hbooks := ht.heldAmount_add ok.funded
      have hout : (s.locked i k amount nonce c.input.context.blockLt).outSum +
          (((s.progress i).paid k).toNat + ((s.progress i).lanes k).pending.toNat) =
            s.outSum + (((s.progress i).paid k).toNat + amount.toNat) := State.outSum_withLane
      have hconfig : (s.locked i k amount nonce c.input.context.blockLt).config = s.config := rfl
      rw [ok.idle] at hout
      rw [hconfig] at hbooks
      omega
  | @receipt _ message header i k ret ok arrived =>
      rw [gained_of_returns hc.accepted ret, if_pos arrived.success, hnone]
      have hfunded := hv.funded_of_pending ok.pending
      have hs := hv.heldAmount_add hfunded
      have hbooks := ht.heldAmount_add hfunded
      have hout : (s.settled i k message.createdLt header.causeMsgHash).outSum +
          (((s.progress i).paid k).toNat + ((s.progress i).lanes k).pending.toNat) =
            s.outSum + (((s.progress i).paid k + ((s.progress i).lanes k).pending).toNat +
              (0 : U128).toNat) := State.outSum_withLane
      have hconfig : (s.settled i k message.createdLt header.causeMsgHash).config = s.config := rfl
      rw [BitVec.toNat_add_of_lt (hv.paid_add_lt ok.active k)] at hout
      rw [hconfig] at hbooks
      omega
  | @bounce _ message header i k ret ok returned =>
      have hattached : c.attached principalCurrencyId =
          ((s.progress i).lanes k).pending.toNat := by
        have hwf := hc.wellFormed.message_ok.extra_ok
        rw [ret.message_eq] at hwf
        unfold Call.attached
        rw [ret.message_eq]
        exact returned.attached hwf
      rw [gained_of_returns hc.accepted ret, if_neg returned.failure, hnone, hattached]
      have hfunded := hv.funded_of_pending ok.pending
      have hs := hv.heldAmount_add hfunded
      have hbooks := ht.heldAmount_add hfunded
      have hout : (s.released i k message.createdLt header.causeMsgHash).outSum +
          (((s.progress i).paid k).toNat + ((s.progress i).lanes k).pending.toNat) =
            s.outSum + (((s.progress i).paid k).toNat + (0 : U128).toNat) := State.outSum_withLane
      have hconfig : (s.released i k message.createdLt header.causeMsgHash).config = s.config := rfl
      rw [hconfig] at hbooks
      omega

/-- What the accepted deposits of principal bring in all. -/
theorem Performs.funded_eq (hc : Performs State.encode Step s c t o) :
    (if t.funded then t.config.totalAmount else 0) =
      (if s.funded then s.config.totalAmount else 0) +
        if c.AcceptedMethod Ids.fund then c.attached principalCurrencyId else 0 := by
  have hstep : Act c.input (s.observed c.input.context.blockTime) t o := hc.step
  have hfunded : (s.observed c.input.context.blockTime).funded = s.funded := rfl
  have hconfig : (s.observed c.input.context.blockTime).config = s.config := rfl
  rw [← hfunded, ← hconfig]
  generalize s.observed c.input.context.blockTime = s at hstep
  -- a call of another kind brings nothing
  have hother (hno : ¬ c.AcceptedMethod Ids.fund) (hsame : t.funded = s.funded)
      (hterms : t.config = s.config) : (if t.funded then t.config.totalAmount else 0) =
        (if s.funded then s.config.totalAmount else 0) +
          if c.AcceptedMethod Ids.fund then c.attached principalCurrencyId else 0 := by
    rw [if_neg hno, hsame, hterms, Nat.add_zero]
  cases hstep with
  | topup ask => exact hother (not_acceptedMethod_of_asks ask (by decide)) rfl rfl
  | status ask => exact hother (not_acceptedMethod_of_asks ask (by decide)) rfl rfl
  | cancel ask => exact hother (not_acceptedMethod_of_asks ask (by decide)) rfl rfl
  | @pay _ i k _ _ ask =>
      have hne : payMethod k ≠ Ids.fund := by
        have hcases : k = 0 ∨ k = 1 := by omega
        rcases hcases with rfl | rfl <;> decide
      exact hother (not_acceptedMethod_of_asks ask hne) rfl rfl
  | receipt ret => exact hother (not_acceptedMethod_of_returns ret) rfl rfl
  | bounce ret => exact hother (not_acceptedMethod_of_returns ret) rfl rfl
  | @fund _ total ask ok =>
      have hitems := (principalValue_eq_some hc.wellFormed.message_ok.extra_ok).mp ok.value
      have hattached : c.attached principalCurrencyId = total.toNat := by
        unfold Call.attached
        rw [hitems, amountOf_cons, if_pos rfl, amountOf_nil, Nat.add_zero]
      have hno : ¬ s.funded = true := by
        rw [ok.fresh]
        exact Bool.noConfusion
      have hmethod : c.AcceptedMethod Ids.fund := ⟨hc.accepted, ask.not_callback, ask.method_eq⟩
      rw [if_pos hmethod, hattached, if_neg hno, ok.total_eq, Nat.zero_add]
      rfl

/-! ## Time -/

/-- The time is the largest that the deployment and the accepted calls have shown. -/
structure IsLargest (start : MessageInput) (calls : List Call) (now : U32) : Prop where
  start_le : start.context.blockTime ≤ now
  calls_le : ∀ c ∈ calls, c.Accepted → c.input.context.blockTime ≤ now
  attained : now = start.context.blockTime ∨
    ∃ c ∈ calls, c.Accepted ∧ now = c.input.context.blockTime

/-- No call but its time changes what the contract remembers. -/
theorem Act.lastTime_eq (hact : Act x s t o) : t.lastTime = s.lastTime := by
  cases hact <;> rfl

/-- A step moves the last time on. -/
theorem Step.lastTime_eq (hstep : Step x s t o) :
    t.lastTime = wordMax s.lastTime x.context.blockTime := Act.lastTime_eq hstep

/-- **The terms** never change. -/
theorem Act.config_eq (hact : Act x s t o) : t.config = s.config := by
  cases hact <;> rfl

/-- A step keeps the configuration. -/
theorem Step.config_eq (hstep : Step x s t o) : t.config = s.config := by
  have hact : Act x (s.observed x.context.blockTime) t o := hstep
  rw [hact.config_eq]
  rfl

omit [Target] in
/-- The largest time after one more accepted call. -/
theorem IsLargest.snoc {start : MessageInput} {calls : List Call} {now : U32}
    (h : IsLargest start calls now) (hc : c.Accepted) :
    IsLargest start (calls ++ [c]) (wordMax now c.input.context.blockTime) := by
  have hmax := toNat_wordMax now c.input.context.blockTime
  have hstart := h.start_le
  refine ⟨?_, fun d hd haccepted => ?_, ?_⟩
  · rw [BitVec.le_def] at hstart ⊢
    omega
  · rw [BitVec.le_def]
    rcases List.mem_append.mp hd with hd | hd
    · have hle := BitVec.le_def.mp (h.calls_le d hd haccepted)
      omega
    · rw [List.mem_singleton.mp hd]
      omega
  · unfold wordMax
    split_ifs
    · exact .inr ⟨c, List.mem_append_right _ List.mem_cons_self, hc, rfl⟩
    · rcases h.attained with heq | ⟨d, hd, haccepted, heq⟩
      · exact .inl heq
      · exact .inr ⟨d, List.mem_append_left _ hd, haccepted, heq⟩

variable {start : MessageInput} {calls : List Call}

/-- The configuration that a deployment names. -/
def Terms (start : MessageInput) (config : Config) : Prop :=
  ∃ deploy, start.deploy = .ok deploy ∧ Config.decode deploy.initData = .ok config

/-- A deployment names one configuration. -/
theorem Terms.unique {config config' : Config} (h : Terms start config)
    (h' : Terms start config') : config = config' := by
  obtain ⟨deploy, hdeploy, hconfig⟩ := h
  obtain ⟨deploy', hdeploy', hconfig'⟩ := h'
  rw [hdeploy, Except.ok.injEq] at hdeploy'
  rw [← hdeploy', hconfig, Except.ok.injEq] at hconfig'
  exact hconfig'

/-- The terms of a run are those of its deployment. -/
theorem terms_of_runs (hrun : vestingMachine.Runs start calls s) : Terms start s.config := by
  refine hrun.stateInvariant (fun s hs => hs.2.config_eq) fun s c t hs hmove => ?_
  rcases moves_cases hmove with ⟨o, hc⟩ | ⟨rfl, -⟩
  · rw [hc.step.config_eq]
    exact hs
  · exact hs

/-- **The contract remembers** the largest time. -/
theorem largest (hrun : vestingMachine.Runs start calls s) : IsLargest start calls s.lastTime := by
  refine hrun.invariant (I := fun es s => IsLargest start es s.lastTime) (fun s hs => ?_)
    fun es s c t _ hlargest hmove => ?_
  · rw [hs.2.state_eq]
    exact ⟨BitVec.le_refl _, fun c hc => absurd hc List.not_mem_nil, .inl rfl⟩
  · rcases moves_cases hmove with ⟨o, hc⟩ | ⟨rfl, hignored⟩
    · rw [hc.step.lastTime_eq]
      exact hlargest.snoc hc.accepted
    · refine ⟨hlargest.start_le, fun d hd haccepted => ?_, ?_⟩
      · rcases List.mem_append.mp hd with hd | hd
        · exact hlargest.calls_le d hd haccepted
        · rw [List.mem_singleton.mp hd] at haccepted
          exact absurd haccepted hignored.refused
      · exact hlargest.attained.imp id fun ⟨d, hd, h⟩ => ⟨d, List.mem_append_left _ hd, h⟩

/-! ## Every run -/

/-- What a stream says: its payee gets no more than its cap, and its owner no more than the rest. -/
structure StreamAccounted (s : State) (i : Fin maxStreams) (cap : ℕ) : Prop where
  /-- The cap is frozen by a cancellation, else it is what was vested at the largest time. -/
  cap_eq : cap = if (s.progress i).cancelled then (s.progress i).cap.toNat
    else (s.config.streams i).releasedAt s.lastTime
  claimed_le : (s.progress i).claimed.toNat + ((s.progress i).lanes 0).pending.toNat ≤ cap
  cap_le : cap ≤ (s.config.streams i).total.toNat
  refunded_le : (s.progress i).cancelled = true →
    (s.progress i).refunded.toNat + ((s.progress i).lanes 1).pending.toNat ≤
      (s.config.streams i).total.toNat - cap
  refunded_eq : (s.progress i).cancelled = false →
    (s.progress i).refunded.toNat = 0 ∧ ((s.progress i).lanes 1).pending.toNat = 0
  /-- No more than the total leaves the stream. -/
  out_le : (s.progress i).out ≤ (s.config.streams i).total.toNat

/-- **Conservation**: what the state of a vesting contract says after some calls. -/
structure Accounted (start : MessageInput) (calls : List Call) (s : State) : Prop where
  largest : IsLargest start calls s.lastTime
  streams : ∀ i, s.config.Active i → ∃ cap, StreamAccounted s i cap
  /-- The principal came in at once, or not yet. -/
  funded : ((calls.filter (Call.AcceptedMethod Ids.fund ·)).map
      (Call.attached principalCurrencyId)).sum =
    if s.funded then ∑ i, (s.config.streams i).total.toNat else 0
  /-- The contract holds what came in and what was returned, less what was sent. -/
  held : ∃ held, s.held = .ok held ∧ (s.funded = false → held = 0) ∧
    held.toNat + (calls.map (Call.sent principalCurrencyId)).sum =
      ((calls.filter (Call.AcceptedMethod Ids.fund ·)).map
        (Call.attached principalCurrencyId)).sum +
      ((calls.filter (Call.AcceptedBounce ·)).map (Call.attached principalCurrencyId)).sum

omit [Target] in
/-- What a valid state says of a stream. -/
theorem State.StreamOk.accounted (h : s.StreamOk i) :
    StreamAccounted s i (s.entitledAt i s.lastTime) := by
  refine ⟨State.entitledAt_lastTime s i, h.covered 0, State.entitledAt_le h.cancelled _,
    fun _ => h.covered 1, fun hrunning => ?_, h.out_le⟩
  have hold := h.running hrunning
  rw [hold.refunded_eq, hold.lane_eq]
  exact ⟨rfl, rfl⟩

/-- **No stream pays more than its total**, and the contract conserves its principal. -/
theorem streams_accounted {b : Bytes} (hrun : vesting.Runs start calls b) :
    ∃ s, State.decode b = .ok s ∧ Accounted start calls s := by
  obtain ⟨s, hruns, hvalid, rfl⟩ := vesting_implements.runs hrun
  have hnew (s : State) (hs : Deployed start s) : s.funded = false := by
    rw [hs.state_eq]
    rfl
  have hbooks := runs_balance Ids.fund principalCurrencyId State.heldAmount vesting_implements hruns
    (fun s _ hdeployed => State.heldAmount_of_not_funded (hnew s hdeployed))
    fun _ _ _ _ hs hc => Step.keeps_books hs hc
  have hfunded := hruns.balance (fun s => if s.funded then s.config.totalAmount else 0)
    (fun c => if c.AcceptedMethod Ids.fund then c.attached principalCurrencyId else 0)
    (fun _ => 0) (fun s hs => by rw [hnew s hs.2]; rfl) fun es s c t _ hmove => by
      rcases moves_cases hmove with ⟨o, hc⟩ | ⟨rfl, hignored⟩
      · exact Performs.funded_eq hc
      · rw [if_neg fun hc : c.AcceptedMethod Ids.fund => hignored.refused hc.1]
  have hsum : (calls.map fun _ => 0).sum = 0 := by simp
  obtain ⟨held, hheld, hvalue⟩ := hvalid.exists_held
  refine ⟨s, hvalid.decode_encode, largest hruns,
    fun i hi => ⟨_, (hvalid.streams i hi).accounted⟩, ?_, held, hheld, fun hno => ?_, ?_⟩
  · rw [hsum, Nat.add_zero, List.sum_map_ite] at hfunded
    simpa [Config.totalAmount] using hfunded.symm
  · apply BitVec.eq_of_toNat_eq
    rw [hvalue, State.heldAmount_of_not_funded hno]
    rfl
  · rw [hvalue]
    exact hbooks

end

/-- A contract after the principal came in and a payment was sent. -/
theorem streams_accounted_sample :
    letI := Target.wasm32
    ∃ s, State.decode sampleClaimed.encode = .ok s ∧ Accounted sampleStart sampleCalls s := by
  let _ := Target.wasm32
  exact streams_accounted sampleRun

end AvmSdk.Vesting
