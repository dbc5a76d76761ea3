import AvmSdk.Contracts.Forward.ContractB

/-!
# Accounts of contract B

The runs of an account of contract B: what its state tells of the calls that it accepted.

* `contractB_implements`: the contract computes the machine of its acts.
* `Received`, `inbox_told`: the state is what was written last, the counter is the number of writes;
  every delivery brought the same value, and what leaves is the whole balance, besides the two payouts
  of a deployment by another account.
* `reads_first`: an event read is the first thing that is ever accepted, and never accepted again.
-/

namespace AvmSdk.Forward.ContractB

open Wire Sdk Contracts Trace

section

variable [Target]

/-- The states after a deployment, and what it answers. A deployment by another account must bring
the value, and two payouts go back. -/
inductive Deployed (x : MessageInput) : Inbox → Prop
  /-- A key deploys. -/
  | outside {key : Bytes32} (caller : x.caller = .external key)
      (sends : (contractB.init x).outboundIntents = []) : Deployed x .empty
  /-- Another account deploys. -/
  | account {source : AccountAddress} (caller : x.caller = .internal source)
      (extra_eq : x.message.extra.items = forwardExtra)
      (sends : (contractB.init x).outboundIntents = List.replicate 2 (payout source x.destination)) :
      Deployed x .deployed

/-- An accepted message: an act that the state allows. -/
def Step (x : MessageInput) (s t : Inbox) (out : MessageOutput) : Prop :=
  ∃ act es, Asks x act ∧ act.Allowed s ∧ act.events x s = .ok es ∧ out = act.output x s es ∧
    t = act.next s

/-- The machine that an account runs. -/
def inboxMachine : Machine Inbox where
  encode := Inbox.encode
  Stored _ := True
  Deployed := Deployed
  Accepts := Step

variable {x : MessageInput} {out : MessageOutput}

omit [Target] in
/-- The state after a deployment. -/
theorem patch_one : patch (zeros stateBytes).val 0 (toLe (1 : U64)) = Inbox.deployed.encode := by
  decide

/-- What a deployment leaves. -/
theorem init_ok (h : init x = .ok out) : ∃ s, Deployed x s ∧ out.statusCode = 0 ∧
    out.nextState x.state = s.encode := by
  have hinit : contractB.init x = out := by
    show orFailure (init x) = out
    rw [h, orFailure_ok]
  unfold init at h
  split at h
  next key hcaller =>
    cases h
    exact ⟨.empty, .outside hcaller (congrArg _ hinit), rfl, rfl⟩
  next source hcaller =>
    simp only [bind_ok_iff, transferred_ok_iff, failIf_ok_iff, exists_const, pure_ok_iff] at h
    obtain ⟨p, ⟨hextra, -⟩, -, es, -, rfl⟩ := h
    exact ⟨.deployed, .account hcaller hextra (congrArg _ hinit), rfl, patch_one⟩

omit [Target] in
/-- The events of a delivery raise the error codes of the contract, -/
theorem raises_causalEvents {destination : AccountAddress} {n : U64} :
    Raises (causalEvents destination n) ErrorCode :=
  raises_of_ok (exists_causalEvents destination n)

/-- and so does the value that comes along. -/
theorem raises_transferred {extra : CurrencyAmounts} : Raises (transferred extra) ErrorCode := by
  have hcode : ErrorCode transferError := by decide
  unfold transferred
  split
  · exact (raises_failIf fun _ => hcode).bind fun _ _ => raises_pure _
  · exact raises_error hcode

/-- The errors of a deployment are error codes. -/
theorem raises_init : Raises (init x) ErrorCode := by
  have hcode : ErrorCode transferError := by decide
  unfold init
  split
  · exact raises_pure _
  · exact raises_transferred.bind fun _ _ => (raises_failIf fun _ => hcode).bind fun _ _ =>
      raises_causalEvents.bind fun _ _ => raises_pure _

/-- The errors of a message are error codes. -/
theorem raises_process : Raises (process x) ErrorCode := by
  have hcaller : ErrorCode callerError := by decide
  have hstate : ErrorCode stateError := by decide
  have hbody : ErrorCode bodyError := by decide
  have hrequest : ErrorCode requestError := by decide
  have hread : ErrorCode readError := by decide
  have hcount : Raises (previousCount stateBytes stateError x.state) ErrorCode :=
    (raises_okOr fun _ => hstate).bind fun _ _ => raises_pure _
  unfold process
  split
  next => exact raises_error hcaller
  next source _ =>
    refine hcount.bind fun n _ => ?_
    split
    next reads _ =>
      unfold processEventRead
      split
      · exact raises_error hread
      · exact (raises_failIf fun _ => hread).bind fun _ _ => (raises_okOr fun _ => hread).bind
          fun _ _ => raises_pure _
    next =>
      refine (raises_okOr fun _ => hstate).bind fun m _ => raises_transferred.bind fun p _ => ?_
      refine (raises_failIf fun _ => hbody).bind fun _ _ => (raises_failIf fun _ => hrequest).bind
        fun _ _ => Raises.ite (fun _ => ?_) fun _ => ?_
      · exact (raises_failIf fun _ => hstate).bind fun _ _ => raises_pure _
      · exact (raises_failIf fun _ => hstate).bind fun _ _ => raises_causalEvents.bind fun _ _ =>
          raises_pure _

/-- **The contract computes its machine.** -/
theorem contractB_implements : contractB.Implements inboxMachine where
  init_ok x _ hstatus := by
    obtain ⟨out, hout, hanswer⟩ := exists_output_of_statusCode (raises_ne_zero raises_init) hstatus
    obtain ⟨s, hdeployed, -, hnext⟩ := init_ok hout
    have hinit : contractB.init x = out := hanswer
    rw [hinit]
    exact ⟨s, trivial, hdeployed, hnext⟩
  stored _ _ _ _ _ _ := trivial
  accepted x s _ _ hstate hstatus := by
    obtain ⟨out, hout, hanswer⟩ := exists_output_of_statusCode (raises_ne_zero raises_process) hstatus
    obtain ⟨s', act, es, hs', hasks, hallowed, hes, rfl⟩ := process_ok_iff.mp hout
    obtain rfl := Inbox.encode_injective (hs'.symm.trans hstate)
    have hprocess : contractB.processMessage x = act.output x s' es := hanswer
    rw [hprocess]
    exact ⟨act.next s', ⟨act, es, hasks, hallowed, hes, rfl, rfl⟩, rfl⟩
  refused x s _ _ hstatus := by
    have hprocess : contractB.processMessage x = orFailure (process x) := rfl
    rw [hprocess] at hstatus ⊢
    cases hresult : process x with
    | error e => rfl
    | ok out =>
        obtain ⟨_, act, es, -, -, -, -, rfl⟩ := process_ok_iff.mp hresult
        rw [hresult] at hstatus
        exact absurd rfl hstatus

/-! ## The history -/

/-- What an act records. -/
def Taken.writes : Taken → Option (BytesN 120)
  | delivery source methodId => some (deliveryRest source methodId)
  | drain _ => none
  | read request results => some (readRest request results)

/-- What an accepted call records, by its message. -/
def written (c : Call) : Option (BytesN 120) :=
  if c.Accepted then
    match c.input.caller, eventReads c.input.message with
    | .external _, _ => none
    | .internal _, some reads =>
        reads.items.head?.map fun request => readRest request c.input.internalEventResults
    | .internal source, none =>
        if c.input.message.methodId = drainMethodId then none
        else some (deliveryRest source c.input.message.methodId)
  else none

/-- The call reads an event. -/
def ReadsEvent (c : Call) : Prop := c.Accepted ∧ (eventReads c.input.message).isSome

omit [Target] in
instance : DecidablePred ReadsEvent := fun _ => inferInstanceAs (Decidable (_ ∧ _))

/-- The call delivers a forward, to be recorded or for a drain. -/
def TakesValue (c : Call) : Prop := c.Accepted ∧ eventReads c.input.message = none

omit [Target] in
instance : DecidablePred TakesValue := fun _ => inferInstanceAs (Decidable (_ ∧ _))

/-- The deployment counts as a delivery if another account deploys. -/
def deliveredBy (start : MessageInput) : ℕ :=
  match start.caller with
  | .internal _ => 1
  | .external _ => 0

/-- The deployment, with its answer. -/
def opening (start : MessageInput) : Call := ⟨start, contractB.init start⟩

/-- What the deployment has brought. Whoever deploys from outside may bring anything. -/
def broughtBy (id : U32) (start : MessageInput) : ℕ := deliveredBy start * (opening start).attached id

/-- What a call sends when it drains the account: the whole balance. -/
def drained (id : U32) (c : Call) : ℕ :=
  if TakesValue c ∧ c.input.message.methodId = drainMethodId then amountOf id c.input.extra.items
  else 0

variable {start : MessageInput} {calls pre post : List Call} {c : Call} {s t : Inbox} {act : Taken}
  {b : Bytes}

/-- What an act records, by its message. -/
theorem written_of_asks (hc : c.Accepted) (h : Asks c.input act) : written c = act.writes := by
  unfold written
  rw [if_pos hc]
  cases h with
  | delivery brings hmethod =>
      rw [brings.caller, brings.not_read]
      exact if_neg hmethod
  | drain brings hmethod =>
      rw [brings.caller, brings.not_read]
      exact if_pos hmethod
  | read reads =>
      obtain ⟨source, hcaller⟩ := reads.caller
      obtain ⟨requests, hrequests, hitems⟩ := reads.requests
      rw [hcaller, hrequests]
      dsimp only
      rw [hitems]
      rfl

omit [Target] in
/-- Every record is counted. -/
theorem Taken.count_next (h : act.Allowed s) :
    (act.next s).count.toNat = s.count.toNat + act.writes.toList.length := by
  cases act with
  | delivery source methodId =>
      have hlt : s.count.toNat + (1 : U64).toNat < 2 ^ 64 := h
      exact BitVec.toNat_add_of_lt hlt
  | drain source => rfl
  | read request results =>
      have hzero : s.count = 0 := h.1
      rw [hzero]
      rfl

omit [Target] in
/-- What is recorded replaces what was recorded before. -/
theorem Taken.rest_next : (act.next s).rest = act.writes.getD s.rest := by
  cases act <;> rfl

/-- **What a state tells** of the calls that led to it. -/
structure Received (start : MessageInput) (calls : List Call) (s : Inbox) : Prop where
  /-- The counter is the number of records, -/
  count_eq : s.count.toNat = deliveredBy start + (calls.filterMap written).length
  /-- and the last one stands behind it. -/
  rest_eq : s.rest = (calls.filterMap written).getLast?.getD (zeros 120)
  /-- Every delivery brought the same amounts, a deployment by another account too, and everything
  else nothing. -/
  brought_eq : ∀ id, broughtBy id start + ((calls.filter (Call.Accepted ·)).map (Call.attached id)).sum =
    (deliveredBy start + (calls.filter (TakesValue ·)).length) * amountOf id forwardExtra
  /-- What was sent away is two units of the first currency back to the account that deployed, if one
  did, and what drains have sent. -/
  sent_eq : ∀ id, ((opening start :: calls).map (Call.sent id)).sum =
    deliveredBy start * (2 * amountOf id [⟨0, 1⟩]) + (calls.map (drained id)).sum
  /-- Every delivery was confirmed. -/
  confirmed : ∀ c ∈ calls, TakesValue c → c.output.callbackResultBody = callbackBody

/-- The value and the answer of an act. -/
theorem value_of_asks {es : List EventIntent} (hc : c.Accepted) (h : Asks c.input act)
    (hout : c.output = act.output c.input s es) (id : U32) :
    (c.attached id = if TakesValue c then amountOf id forwardExtra else 0) ∧
      c.sent id = drained id c ∧ (TakesValue c → c.output.callbackResultBody = callbackBody) := by
  have hsent : c.sent id = ((act.sends c.input).map fun intent => amountOf id intent.extra).sum := by
    rw [Call.sent, hout]
    rfl
  have hresult : c.output.callbackResultBody = act.result := by
    rw [hout]
    rfl
  rw [hsent, hresult, Call.attached, drained]
  cases h with
  | delivery brings hmethod =>
      have htakes : TakesValue c := ⟨hc, brings.not_read⟩
      rw [if_pos htakes, if_neg (fun hno => hmethod hno.2), brings.extra_eq]
      exact ⟨rfl, rfl, fun _ => rfl⟩
  | drain brings hmethod =>
      have htakes : TakesValue c := ⟨hc, brings.not_read⟩
      rw [if_pos htakes, if_pos ⟨htakes, hmethod⟩, brings.extra_eq]
      exact ⟨rfl, by simp [Taken.sends], fun _ => rfl⟩
  | read reads =>
      obtain ⟨requests, hrequests, -⟩ := reads.requests
      have htakes : ¬ TakesValue c := by
        intro hno
        cases hrequests.symm.trans hno.2
      rw [if_neg htakes, if_neg (fun hno => htakes hno.1), reads.extra_eq]
      exact ⟨rfl, rfl, fun hno => absurd hno htakes⟩

/-- **A call** keeps what the state tells. -/
theorem Received.moves (h : Received start calls s) (hmove : inboxMachine.Moves s c t) :
    Received start (calls ++ [c]) t := by
  cases hmove with
  | accepted _ _ haccepted haccepts _ =>
      obtain ⟨act, es, hasks, hallowed, -, hout, rfl⟩ := haccepts
      have hwritten := written_of_asks haccepted hasks
      refine ⟨?_, ?_, fun id => ?_, fun id => ?_, ?_⟩
      · rw [filterMap_snoc, List.length_append, ← Nat.add_assoc, ← h.count_eq, hwritten]
        exact Taken.count_next hallowed
      · rw [Taken.rest_next, filterMap_snoc, hwritten, List.getLast?_append, h.rest_eq]
        cases act.writes <;> rfl
      · obtain ⟨hattached, -, -⟩ := value_of_asks haccepted hasks hout id
        rw [sum_filter_snoc, if_pos haccepted, ← Nat.add_assoc, h.brought_eq, length_filter_snoc,
          hattached, ← Nat.add_assoc, Nat.add_mul _ (if TakesValue c then 1 else 0)]
        split_ifs <;> simp
      · obtain ⟨-, hsent, -⟩ := value_of_asks haccepted hasks hout id
        rw [← List.cons_append, sum_map_snoc, h.sent_eq, sum_map_snoc, hsent, Nat.add_assoc]
      · intro d hd
        rcases List.mem_append.mp hd with hd | hd
        · exact h.confirmed d hd
        · rw [List.mem_singleton.mp hd]
          exact (value_of_asks haccepted hasks hout 0).2.2
  | refused _ _ hrefused hout =>
      have htakes : ¬ TakesValue c := fun hno => hrefused hno.1
      have hwritten : written c = none := if_neg hrefused
      refine ⟨?_, ?_, fun id => ?_, fun id => ?_, ?_⟩
      · rw [filterMap_snoc, hwritten, Option.toList_none, List.append_nil, h.count_eq]
      · rw [filterMap_snoc, hwritten, Option.toList_none, List.append_nil, h.rest_eq]
      · rw [sum_filter_snoc, if_neg hrefused, Nat.add_zero, h.brought_eq, length_filter_snoc,
          if_neg htakes, Nat.add_zero]
      · have hsent : c.sent id = 0 := by
          rw [Call.sent, hout]
          rfl
        have hdrained : drained id c = 0 := if_neg fun hno => htakes hno.1
        rw [← List.cons_append, sum_map_snoc, h.sent_eq, sum_map_snoc, hsent, hdrained, Nat.add_zero,
          Nat.add_zero]
      · intro d hd htakes'
        rcases List.mem_append.mp hd with hd | hd
        · exact h.confirmed d hd htakes'
        · rw [List.mem_singleton.mp hd] at htakes'
          exact absurd htakes' htakes

/-- The state of a run tells its history. -/
theorem received_of_runs (hrun : inboxMachine.Runs start calls s) : Received start calls s := by
  apply hrun.invariant (I := Received start)
  · rintro s ⟨-, hdeployed⟩
    have hsent (id : U32) : (opening start).sent id =
        ((contractB.init start).outboundIntents.map fun intent => amountOf id intent.extra).sum := rfl
    cases hdeployed with
    | outside hcaller hsends =>
        have hnone : deliveredBy start = 0 := by rw [deliveredBy, hcaller]
        refine ⟨?_, rfl, fun id => ?_, fun id => ?_, List.forall_mem_nil _⟩
        · rw [hnone]
          rfl
        · rw [broughtBy, hnone]
          simp
        · simp [hsent, hsends, hnone]
    | account hcaller hextra hsends =>
        have hone : deliveredBy start = 1 := by rw [deliveredBy, hcaller]
        refine ⟨?_, rfl, fun id => ?_, fun id => ?_, List.forall_mem_nil _⟩
        · rw [hone]
          rfl
        · have hattached : (opening start).attached id = amountOf id forwardExtra :=
            congrArg (amountOf id) hextra
          rw [broughtBy, hone, hattached]
          simp
        · have hpayouts : (opening start).sent id = 2 * amountOf id [⟨0, 1⟩] := by
            rw [hsent, hsends, Nat.two_mul]
            rfl
          rw [List.map_singleton, List.sum_singleton, hpayouts, hone, Nat.one_mul]
          rfl
  · exact fun es s c t _ hreceived hmove => hreceived.moves hmove

/-- **An inbox tells its history**, in every state that an account of contract B reaches. -/
theorem inbox_told (hrun : contractB.Runs start calls b) :
    ∃ s : Inbox, b = s.encode ∧ Received start calls s := by
  obtain ⟨s, hruns, -, rfl⟩ := contractB_implements.runs hrun
  exact ⟨s, rfl, received_of_runs hruns⟩

/-! ## Event reads -/

/-- An event is read only before anything was recorded. -/
theorem nothing_written (hrun : contractB.Runs start (pre ++ c :: post) b) (hc : ReadsEvent c) :
    deliveredBy start = 0 ∧ pre.filterMap written = [] ∧ (written c).isSome := by
  obtain ⟨s, hruns, -, -⟩ := contractB_implements.runs hrun
  obtain ⟨u, w, hpre, hmove⟩ := hruns.before
  cases hmove with
  | refused _ _ hrefused => exact absurd hc.1 hrefused
  | accepted _ _ haccepted haccepts _ =>
      obtain ⟨act, es, hasks, hallowed, -⟩ := haccepts
      have hwritten := written_of_asks haccepted hasks
      cases hasks with
      | delivery brings =>
          have hsome := hc.2
          rw [brings.not_read] at hsome
          cases hsome
      | drain brings =>
          have hsome := hc.2
          rw [brings.not_read] at hsome
          cases hsome
      | read reads =>
          have hzero : u.count = 0 := hallowed.1
          have hcount := (received_of_runs hpre).count_eq
          rw [hzero] at hcount
          have hnone := Nat.eq_zero_of_add_eq_zero hcount.symm
          refine ⟨hnone.1, List.eq_nil_of_length_eq_zero hnone.2, ?_⟩
          rw [hwritten]
          rfl

/-- **An event read comes first**: nothing was accepted before it, the account was deployed from
outside, and no event is read again. -/
theorem reads_first (hrun : contractB.Runs start (pre ++ c :: post) b) (hc : ReadsEvent c) :
    (∃ key, start.caller = .external key) ∧ (∀ d ∈ pre, ¬ d.Accepted) ∧
      ∀ d ∈ post, ¬ ReadsEvent d := by
  obtain ⟨hstart, hpre, hwritten⟩ := nothing_written hrun hc
  refine ⟨?_, fun d hd haccepted => ?_, fun d hd hread => ?_⟩
  · unfold deliveredBy at hstart
    cases hcaller : start.caller with
    | external key => exact ⟨key, rfl⟩
    | «internal» source =>
        rw [hcaller] at hstart
        cases hstart
  · -- a call before the read would be a drain, and there was nothing to drain
    obtain ⟨first, rest, rfl⟩ := List.append_of_mem hd
    rw [List.filterMap_append, List.append_eq_nil_iff] at hpre
    have hnone : written d = none := by
      have hcons := hpre.2
      rw [List.filterMap_cons] at hcons
      cases hd : written d with
      | none => rfl
      | some _ =>
          rw [hd] at hcons
          cases hcons
    rw [List.append_assoc, List.cons_append] at hrun
    obtain ⟨s, hruns, -, -⟩ := contractB_implements.runs hrun
    obtain ⟨u, w, hfirst, hmove⟩ := hruns.before
    cases hmove with
    | refused _ _ hrefused => exact hrefused haccepted
    | accepted _ _ _ haccepts _ =>
        obtain ⟨act, es, hasks, hallowed, -⟩ := haccepts
        have hwrites := written_of_asks haccepted hasks
        rw [hnone] at hwrites
        cases act with
        | delivery => cases hwrites
        | read => cases hwrites
        | drain source =>
            have hone : u.count = 1 := hallowed
            have hcount := (received_of_runs hfirst).count_eq
            rw [hone, hstart, hpre.1] at hcount
            exact absurd hcount (by decide)
  · obtain ⟨mid, rest, rfl⟩ := List.append_of_mem hd
    have hsplit : pre ++ c :: (mid ++ d :: rest) = (pre ++ c :: mid) ++ d :: rest := by simp
    rw [hsplit] at hrun
    obtain ⟨-, hnone, -⟩ := nothing_written hrun hread
    rw [List.filterMap_append, List.append_eq_nil_iff, List.filterMap_cons] at hnone
    obtain ⟨rest', hsome⟩ := Option.isSome_iff_exists.mp hwritten
    rw [hsome] at hnone
    cases hnone.2

/-- **Another account can deploy** if it brings the value. -/
theorem starts_of_account {source : AccountAddress} (hwf : x.WellFormed)
    (hcaller : x.caller = .internal source) (hdeploy : x.message.isDeploy)
    (hextra : x.message.extra.items = forwardExtra) : contractB.Starts x Inbox.deployed.encode := by
  obtain ⟨es, hes⟩ := exists_causalEvents x.destination 1
  have hinit : ∃ out, init x = .ok out := by
    unfold init
    rw [hcaller]
    simp only [bind_ok_iff, transferred_ok_iff, failIf_ok_iff, exists_const, pure_ok_iff]
    exact ⟨_, _, ⟨hextra, rfl⟩, not_not.mpr hdeploy, es, hes, rfl⟩
  obtain ⟨out, hout⟩ := hinit
  obtain ⟨s, hdeployed, hstatus, hnext⟩ := init_ok hout
  have hanswer : contractB.init x = out := by
    show orFailure (init x) = out
    rw [hout, orFailure_ok]
  cases hdeployed with
  | outside hno => cases hcaller.symm.trans hno
  | account =>
      rw [← hanswer] at hstatus hnext
      exact ⟨hwf, hstatus, hnext.symm⟩

/-- A run goes on with a message that asks for an act. -/
theorem runs_of_asks {es : List EventIntent} (hrun : contractB.Runs start calls s.encode)
    (hwf : x.WellFormed) (hstate : x.state = s.encode) (hasks : Asks x act)
    (hallowed : act.Allowed s) (hes : act.events x s = .ok es) :
    contractB.Runs start (calls ++ [⟨x, act.output x s es⟩]) (act.next s).encode := by
  have hprocess : contractB.processMessage x = act.output x s es := by
    unfold contractB
    dsimp only
    rw [process_ok_iff.mpr ⟨s, act, es, hstate, hasks, hallowed, hes, rfl⟩, orFailure_ok]
  exact hrun.snoc ⟨hwf, hstate, hprocess.symm, rfl⟩

end

/-! ## Two accounts -/

section

local instance : Target := Target.wasm32

/-- A deployment that is signed by a key. -/
def sampleStart : MessageInput :=
  signedInput ⟨0, 0, 0, zeros 32⟩ (.ofEntries []) []
    { pubkey := (sampleAddress 1).dappId
      destination := sampleAddress 5
      deploys := true
      methodId := 0
      extra := .ofEntries []
      body := [] }

/-- A message to the account. -/
def sampleMessage (methodId : U64) (flags : U8) (handler : Option U64) (reads : Option InternalEventReadRequests)
    (extra : List CurrencyAmount) (body : Bytes) : InternalMessage :=
  InternalMessage.sent
    { flags := flags
      methodId := methodId
      fuelFeeShells := 1
      createdLt := 2
      createdAt := 0
      source := sampleAddress 9
      destination := sampleAddress 5
      callback := none
      callbackHandlerMethodId := handler
      eventReads := reads
      extra := .ofEntries extra
      body := body
      canonicalBytes := [] }

/-- The event that is read. -/
def sampleRequest : InternalEventReadRequest := ⟨sampleAddress 6, internalEventClass⟩

/-- The result of the read comes with the message. -/
def sampleRead : MessageInput :=
  { internalInput ⟨0, 0, 0, zeros 32⟩ (.ofEntries []) Inbox.empty.encode
      (sampleMessage 7 internalFlagEventReads none
        (some ⟨toLe (1 : U16) ++ (toLe (0 : U16) ++ (sampleRequest.source.toBytes ++
          toLe sampleRequest.eventClass)), 1⟩) [] expectedPrefix) with
    internalEventResults := expectedPrefix }

/-- The state after the read. -/
def sampleReadInbox : Inbox := ⟨1, readRest sampleRequest expectedPrefix⟩

/-- The delivery of a forward, at a state. -/
def sampleDelivery (s : Inbox) : MessageInput :=
  internalInput ⟨0, 0, 0, zeros 32⟩ (.ofEntries []) s.encode
    (sampleMessage 7 internalFlagCallbackRequest (some 8) none forwardExtra outboundBody)

/-- The call of the read, -/
def sampleReadCall : Call :=
  ⟨sampleRead, (Taken.read sampleRequest expectedPrefix).output sampleRead .empty []⟩

/-- and that of the delivery. -/
def sampleDeliveryCall (es : List EventIntent) : Call :=
  ⟨sampleDelivery sampleReadInbox,
    (Taken.delivery (sampleAddress 9) 7).output (sampleDelivery sampleReadInbox) sampleReadInbox es⟩

/-- The state in the end. -/
def sampleFilled : Inbox := (Taken.delivery (sampleAddress 9) 7).next sampleReadInbox

/-- A deployment by another account, which brings the value. -/
def sampleDeployment : MessageInput :=
  internalInput ⟨0, 0, 0, zeros 32⟩ (.ofEntries forwardExtra) []
    (sampleMessage 0 internalFlagDeploy none none forwardExtra [])

/-- A drain of what the deployment and the drain itself have brought, the payouts apart. -/
def sampleDrain : MessageInput :=
  internalInput ⟨0, 0, 0, zeros 32⟩ (.ofEntries [⟨0, 72⟩, ⟨extraCurrencyId, 22⟩])
    Inbox.deployed.encode
    (sampleMessage drainMethodId internalFlagCallbackRequest (some 8) none forwardExtra outboundBody)

/-- The call that drains the account. -/
def sampleDrainCall : Call :=
  ⟨sampleDrain, (Taken.drain (sampleAddress 9)).output sampleDrain .deployed []⟩

/-- The delivery brings the value. -/
theorem sampleDelivery_brings (s : Inbox) : Brings (sampleDelivery s) (sampleAddress 9) := by
  have hrequest : internalFlagCallbackRequest &&& internalFlagCallbackRequest ≠ 0 := by decide
  exact ⟨rfl, rfl, CurrencyAmounts.items_ofEntries (by decide), rfl, hrequest⟩

/-- The delivery at an empty inbox is well formed. -/
theorem sampleDelivery_wellFormed : (sampleDelivery .empty).WellFormed :=
  (exists_frame (by decide +kernel) (by decide +kernel)).1

/-- The account that was deployed with a value is drained. -/
theorem sampleDrained : contractB.Runs sampleDeployment [sampleDrainCall] Inbox.deployed.encode := by
  have hwf : sampleDeployment.WellFormed := (exists_frame (by decide +kernel) (by decide +kernel)).1
  have hwfDrain : sampleDrain.WellFormed := (exists_frame (by decide +kernel) (by decide +kernel)).1
  have hstart : contractB.Starts sampleDeployment Inbox.deployed.encode :=
    starts_of_account hwf rfl (by decide) (CurrencyAmounts.items_ofEntries (by decide))
  have hbrings : Brings sampleDrain (sampleAddress 9) := by
    refine ⟨rfl, rfl, CurrencyAmounts.items_ofEntries ?_, rfl, ?_⟩ <;> decide
  exact runs_of_asks (.start hstart) hwfDrain rfl (.drain hbrings rfl) rfl rfl

/-- An event is read, and a delivery is taken. -/
theorem sampleRun : ∃ es, contractB.Runs sampleStart [sampleReadCall, sampleDeliveryCall es]
    sampleFilled.encode := by
  have hkey : (sampleAddress 1).dappId ≠ zeros 32 := by decide
  have hdestination : ¬ isZeroAddress (sampleAddress 5) := by decide
  have hstart : contractB.Starts sampleStart Inbox.empty.encode := by
    refine ⟨?_, rfl, ?_⟩
    · exact signedInput_wellFormed ⟨hkey, hdestination, CurrencyAmounts.wellFormed_ofEntries_nil,
        Nat.two_pow_pos 31⟩ CurrencyAmounts.wellFormed_ofEntries_nil (Nat.two_pow_pos 32)
    · decide
  have hread : Reads sampleRead sampleRequest := by
    refine ⟨⟨_, rfl⟩, ⟨_, rfl, ?_⟩, rfl, ?_, ?_, ?_, ?_, rfl, rfl, ?_⟩ <;> decide +kernel
  have hwfRead : sampleRead.WellFormed := (exists_frame (by decide +kernel) (by decide +kernel)).1
  have hwfDelivery : (sampleDelivery sampleReadInbox).WellFormed :=
    (exists_frame (by decide +kernel) (by decide +kernel)).1
  obtain ⟨es, hes⟩ := exists_causalEvents (sampleDelivery sampleReadInbox).destination
    (sampleReadInbox.count + 1)
  have hfirst := runs_of_asks (.start hstart) hwfRead rfl (.read hread) ⟨rfl, rfl⟩ rfl
  have hdelivery : Asks (sampleDelivery sampleReadInbox) (.delivery (sampleAddress 9) 7) :=
    .delivery (sampleDelivery_brings _) (by decide)
  have hroom : sampleReadInbox.count.toNat + 1 < 2 ^ 64 := by decide
  exact ⟨es, runs_of_asks hfirst hwfDelivery rfl hdelivery hroom hes⟩

end

/-- The account that another one deployed, after its drain. -/
theorem inbox_told_sample :
    letI := Target.wasm32
    ∃ s : Inbox, Inbox.deployed.encode = s.encode ∧
      Received sampleDeployment [sampleDrainCall] s := by
  let _ := Target.wasm32
  exact inbox_told sampleDrained

/-- The read of the account came first. -/
theorem reads_first_sample :
    letI := Target.wasm32
    ∃ es, (∃ key, sampleStart.caller = .external key) ∧
      (∀ d ∈ ([] : List Call), ¬ d.Accepted) ∧ ∀ d ∈ [sampleDeliveryCall es], ¬ ReadsEvent d := by
  let _ := Target.wasm32
  obtain ⟨es, hrun⟩ := sampleRun
  have hread : ReadsEvent sampleReadCall := ⟨rfl, rfl⟩
  have hsplit : contractB.Runs sampleStart ([] ++ sampleReadCall :: [sampleDeliveryCall es])
      sampleFilled.encode := hrun
  exact ⟨es, reads_first hsplit hread⟩

end AvmSdk.Forward.ContractB
