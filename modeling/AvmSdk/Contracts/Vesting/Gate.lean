import AvmSdk.Contracts.Gate
import AvmSdk.Contracts.Vesting.Machine
import AvmSdk.Contracts.Vesting.Receiver

/-!
# Vesting at the gate

The vesting contract and its receivers answer nothing that the gate of the guest crate refuses.

* `ensures_process`: the events of the contract are short.
* `passes_vesting`: the contract. Its payments go to accounts that exist.
* `passes_receiver`: a receiver, which sends nothing.
-/

namespace AvmSdk.Vesting

open Wire Sdk Contracts

section

variable [Target] {x : MessageInput} {s t : State} {o : Option Transfer} {actor : Bytes32}
  {i : Fin maxStreams} {k : Fin 2}

/-! ## Events -/

omit [Target] in
/-- A report carries the state and one event, -/
theorem ensures_finish {eventClass : U64} {name : String} {index kind : U8} {amount : U128}
    (hname : (asBytes name).length ≤ 2 ^ 8) :
    Ensures (finish s eventClass name index kind amount) Reports := by
  unfold finish
  refine ensures_bind fun _ _ => ensures_bind ?_
  rintro ⟨claimed, refunded, pending⟩ -
  refine ensures_bind fun _ _ => ensures_bind fun b hb => ensures_pure ?_
  refine List.forall_mem_singleton.mpr ⟨?_, rfl⟩
  exact briefEvent_of_fields (mapError_ok_iff.mp hb) (by simp) hname (Nat.zero_le 1) nofun

/-- and so does every answer of the contract: of the fees, -/
theorem ensures_topup : Ensures (topup x s) Reports := by
  unfold topup
  exact ensures_bind fun _ _ => ensures_bind fun _ _ => ensures_finish (by decide)

/-- of the funding, -/
theorem ensures_fund : Ensures (fund x actor s) Reports := by
  unfold fund
  refine ensures_bind fun _ _ => ensures_bind fun _ _ => ensures_bind fun _ _ => ?_
  refine ensures_bind fun _ _ => ensures_bind fun _ _ => ensures_bind fun _ _ => ?_
  exact ensures_finish (by decide)

omit [Target] in
/-- of the status, -/
theorem ensures_status : Ensures (status x s) Reports := by
  unfold status
  exact ensures_bind fun _ _ => ensures_finish (by decide)

omit [Target] in
/-- of a cancellation, -/
theorem ensures_cancel : Ensures (cancel actor s i) Reports := by
  unfold cancel
  refine ensures_bind fun _ _ => ensures_bind fun _ _ => ensures_bind fun _ _ => ?_
  exact ensures_bind fun _ _ => ensures_finish (by decide)

/-- of a payment, -/
theorem ensures_pay : Ensures (pay x s i k) Reports := by
  have hname : (asBytes "stream.pending").length ≤ 2 ^ 8 := by decide
  unfold pay
  refine ensures_bind fun _ _ => ensures_bind fun _ _ => ensures_bind fun _ _ => ?_
  refine ensures_bind fun _ _ => ensures_bind fun _ _ => ensures_bind fun _ _ => ?_
  exact ensures_bind fun out hout => ensures_pure (ensures_finish hname out hout)

/-- of any method, -/
theorem ensures_manage : Ensures (manage x actor s) Reports := by
  unfold manage
  refine ensures_bind fun _ _ => ensures_bind fun _ _ => Ensures.ite (fun _ => ensures_cancel) ?_
  intro _
  refine Ensures.ite (fun _ => ensures_bind fun _ _ => ensures_pay) fun _ => ?_
  exact Ensures.ite (fun _ => ensures_bind fun _ _ => ensures_pay) fun _ => ensures_error _

/-- and of a callback. -/
theorem ensures_callback : Ensures (callback x s) Reports := by
  unfold callback
  split
  next source message hcaller hmessage =>
    refine ensures_bind fun _ _ => ensures_bind fun _ _ => ensures_bind fun _ _ => ?_
    refine ensures_bind ?_
    rintro ⟨i, kind⟩ -
    refine ensures_bind fun _ _ => Ensures.ite (fun _ => ?_) fun _ => ?_
    · exact ensures_bind fun _ _ => ensures_finish (by decide)
    · exact ensures_bind fun _ _ => ensures_finish (by decide)
  next => exact ensures_error _

/-- **The reports of the contract.** -/
theorem ensures_process : Ensures (process x) Reports := by
  unfold process
  refine ensures_bind fun s _ => Ensures.ite (fun _ => ensures_callback) fun _ => ?_
  split
  next => exact ensures_error _
  next actor hcaller =>
    refine Ensures.ite (fun _ => ensures_topup) fun _ => ?_
    refine Ensures.ite (fun _ => ensures_fund) fun _ => ensures_bind fun _ _ => ?_
    exact Ensures.ite (fun _ => ensures_status) fun _ => ensures_manage

/-- The deployment answers with a report. -/
theorem ensures_initializeVesting : Ensures (initializeVesting x) Reports := by
  unfold initializeVesting
  refine ensures_bind fun _ _ => ensures_bind fun _ _ => ensures_bind fun _ _ => ?_
  exact ensures_bind fun _ _ => ensures_bind fun _ _ => ensures_finish (by decide)

/-! ## The contract -/

/-- No step answers the reserved upgrade method. -/
theorem Step.methodId_ne (h : Step x s t o) : x.message.methodId ≠ codeUpgradeMethodId := by
  have hcallback : Ids.callback ≠ codeUpgradeMethodId := by decide
  have hpay (k : Fin 2) : payMethod k ≠ codeUpgradeMethodId := by
    unfold payMethod
    split_ifs <;> decide
  unfold Step at h
  cases h with
  | topup ask => exact methodId_ne_of_asks ask (by decide)
  | fund ask => exact methodId_ne_of_asks ask (by decide)
  | status ask => exact methodId_ne_of_asks ask (by decide)
  | cancel ask => exact methodId_ne_of_asks ask (by decide)
  | pay ask => exact methodId_ne_of_asks ask (hpay _)
  | receipt ret ok => exact methodId_ne_of_returns ret ok.method_eq hcallback
  | bounce ret ok => exact methodId_ne_of_returns ret ok.method_eq hcallback

/-- Every payment goes to an account that exists. -/
theorem Step.briefTransfer (h : Step x s t o) (hs : s.Valid) :
    ∀ transfer ∈ o, BriefTransfer transfer := by
  have hdestination {i : Fin maxStreams} (hi : s.config.Active i) (k : Fin 2) :
      nonzeroAddress ((s.config.streams i).destination k) := by
    unfold Stream.destination
    split_ifs
    · exact hs.config.payout_ne_zero i hi
    · exact hs.config.refund_ne_zero i hi
  unfold Step at h
  cases h
  case pay i k amount nonce ask free ok =>
    rintro _ ⟨⟩
    have hhandler : Ids.callback ≠ 0 := by decide
    refine ⟨briefIntent_of_amount (hdestination ok.active k) le_rfl ?_, hhandler⟩
    rw [length_paymentBody]
    decide
  all_goals
    intro _ hno
    cases hno

/-- **The vesting contract** passes the gate. -/
theorem passes_vesting : Passes vesting := by
  apply passes_of_steps vesting_implements
  case hlength =>
    intro s
    rw [State.length_encode]
    decide
  case hinit => exact fun _ => raises_initializeVesting
  case hdeployed => exact fun _ _ => initializeVesting_ok
  case hcreated => exact fun _ => ensures_initializeVesting
  case hprocess => exact fun _ _ hs hstate => (process_codes hs hstate).imp fun _ he => he.1
  case hstep => exact fun _ _ _ => process_ok
  case hreports => exact fun _ => ensures_process
  case hmethod => exact fun _ _ _ _ => Step.methodId_ne
  case htransfer => exact fun _ _ _ _ hs hstep => hstep.briefTransfer hs

/-! ## The receiver -/

/-- The states of a receiver. -/
def Sized (b : Bytes) : Prop := b.length = receiverBytes

section

variable {b : Bytes}

omit [Target] in
/-- A patch inside a state makes a state. -/
theorem Sized.patched (h : Sized b) {o : ℕ} {u : Bytes} (hfits : o + u.length ≤ receiverBytes) :
    Sized (patch b o u) := by
  unfold Sized at h ⊢
  rw [← h] at hfits
  rw [length_patch hfits, h]

/-- A receiver starts with a state of its size, -/
theorem ensures_initializeReceiver :
    Ensures (initializeReceiver x) fun out => ∃ next, Sized next ∧ out = reply next [] [] := by
  unfold initializeReceiver
  split
  next => exact ensures_error _
  next owner hcaller =>
    refine ensures_bind fun deploy _ => ensures_bind fun _ _ => ensures_pure ⟨_, ?_, rfl⟩
    have hzeros : Sized (zeros receiverBytes).val := (zeros receiverBytes).property
    have howner : 0 + owner.val.length ≤ receiverBytes := by
      rw [owner.property]
      decide
    exact ((hzeros.patched howner).patched (by simp [receiverBytes])).patched
      (by simp [receiverBytes])

/-- and keeps the size when it is configured. -/
theorem ensures_configured (h : Sized b) : Ensures (configured x actor b) Sized := by
  unfold configured
  refine Ensures.ite (fun _ => ensures_bind fun _ _ => ensures_pure h) fun _ => ?_
  refine ensures_bind fun _ _ => ensures_bind fun _ _ => Ensures.ite (fun _ => ?_) fun _ => ?_
  · unfold bindSource
    refine ensures_bind fun _ _ => ensures_bind fun a _ => ensures_bind fun _ _ => ensures_pure ?_
    apply h.patched
    rw [a.length_toBytes]
    decide
  · unfold setReject
    refine ensures_bind fun _ _ => ensures_pure (h.patched ?_)
    simp [receiverBytes]

/-- **A receipt** is passed back to the contract that pays. -/
theorem ensures_receive (h : Sized b) (hform : ¬ MalformedReceiver b) {source : AccountAddress}
    {message : InternalMessage} (hmessage : x.message = .internal message) :
    Ensures (receive source message b) fun out => ∃ next result intents,
      Sized next ∧ Replies x result intents ∧ out = reply next result intents := by
  unfold receive
  refine ensures_bind fun _ _ => ensures_bind fun _ hguard => ensures_bind fun _ _ => ?_
  refine ensures_bind ?_
  rintro ⟨index, kind, nonce, amount⟩ hbody
  refine ensures_bind fun _ hlane => ensures_bind fun _ _ => ensures_bind fun _ _ => ?_
  refine ensures_bind fun _ _ => ensures_bind fun total _ => ensures_bind fun _ _ => ?_
  refine ensures_bind fun count _ => ensures_pure ⟨_, _, [], ?_, ?_, rfl⟩
  · have hlane := failIf_ok_iff.mp hlane
    unfold MalformedReceiver at hform
    push Not at hlane hform
    have hindex : index < maxStreams := by
      rw [hlane.1]
      exact hform.2.2.2.1
    have hsize : receiverBytes = 368 := rfl
    have hmax : maxStreams = 8 := rfl
    have hnonce : (toLe nonce).length = 8 := length_toLe nonce
    have htotal : (toLe total).length = 16 := length_toLe total
    have hcount : (toLe count).length = 8 := length_toLe count
    unfold recordOffset
    exact ((h.patched (by omega)).patched (by omega)).patched (by omega)
  · have hguard := failIf_ok_iff.mp hguard
    push Not at hguard
    obtain ⟨hmethod, -, -, hrequest, -⟩ := hguard
    obtain ⟨_, _, -, -, -, -, -, -, hpayment⟩ := readPayment_ok_iff.mp hbody
    refine ⟨?_, .inl ?_, ?_, Nat.zero_le _, nofun⟩
    · rw [hmessage]
      show message.methodId ≠ codeUpgradeMethodId
      rw [hmethod]
      decide
    · rw [hmessage]
      exact hrequest
    · rw [hpayment, length_paymentBody]
      decide

/-- **The replies of a receiver.** -/
theorem ensures_processReceiver (h : Sized x.state) :
    Ensures (processReceiver x) fun out => ∃ next result intents,
      Sized next ∧ Replies x result intents ∧ out = reply next result intents := by
  unfold processReceiver
  refine ensures_bind fun _ hform => Ensures.ite (fun hmethod => ?_) fun _ => ?_
  · have hne : x.message.methodId ≠ codeUpgradeMethodId := by
      rcases hmethod with hmethod | hmethod | hmethod <;> rw [hmethod] <;> decide
    unfold configure
    split
    next => exact ensures_error _
    next actor hcaller =>
      refine ensures_bind fun _ _ => ensures_bind fun next hnext => ensures_pure ?_
      exact ⟨_, _, _, ensures_configured h next hnext, replies_nil hne, rfl⟩
  · split
    next source message hcaller hmessage =>
      exact ensures_receive h (failIf_ok_iff.mp hform) hmessage
    next => exact ensures_error _

end

/-- **The receiver** passes the gate. -/
theorem passes_receiver : Passes receiver := by
  refine passes_of_replies raises_initializeReceiver raises_processReceiver (fun b hb => ?_)
    (fun _ => ensures_initializeReceiver) fun _ => ensures_processReceiver
  unfold Sized at hb
  rw [hb]
  decide

end

end AvmSdk.Vesting
