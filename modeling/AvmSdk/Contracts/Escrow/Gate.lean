import AvmSdk.Contracts.Escrow.Machine
import AvmSdk.Contracts.Escrow.Receiver
import AvmSdk.Contracts.Gate

/-!
# The escrow at the gate

The escrow and its receivers answer nothing that the gate of the guest crate refuses.

* `ensures_process`: the events of the escrow are short.
* `passes_escrow`: the escrow. Its transfers go to accounts that exist.
* `passes_receiver`: a receiver, which sends nothing.
-/

namespace AvmSdk.Escrow

open Wire Sdk Contracts

section

variable [Target] {x : MessageInput} {s t : State} {o : Option Transfer} {actor : Bytes32}

/-! ## Events -/

omit [Target] in
/-- A report carries the state and one event, -/
theorem ensures_finish {name : String} {index : U8} {amount : U128} :
    Ensures (finish s name index amount) Reports := by
  unfold finish
  refine ensures_bind fun _ _ => ensures_bind fun b hb => ensures_bind fun id hid => ensures_pure ?_
  have hshort : (asBytes name).length ≤ 2 ^ 8 := by
    unfold eventClass at hid
    split at hid
    all_goals first | decide | cases hid
  have howner : ∀ topic ∈ [s.config.owner.val], topic.length ≤ 32 :=
    List.forall_mem_singleton.mpr s.config.owner.property.le
  refine List.forall_mem_singleton.mpr ⟨?_, rfl⟩
  exact briefEvent_of_fields (mapError_ok_iff.mp hb) (by simp) hshort le_rfl howner

omit [Target] in
/-- and so does every answer of the escrow: of the status, -/
theorem ensures_status : Ensures (status x s) Reports := by
  unfold status
  exact ensures_bind fun _ _ => ensures_bind fun _ _ => ensures_finish

/-- of the fees, -/
theorem ensures_topup : Ensures (topup x s) Reports := by
  unfold topup
  exact ensures_bind fun _ _ => ensures_bind fun _ _ => ensures_finish

/-- of the funding, -/
theorem ensures_fund : Ensures (fund x actor s) Reports := by
  unfold fund
  refine ensures_bind fun _ _ => ensures_bind fun _ _ => ensures_bind fun _ _ => ?_
  exact ensures_bind fun _ _ => ensures_bind fun _ _ => ensures_bind fun _ _ => ensures_finish

/-- of a submission, -/
theorem ensures_submit : Ensures (submit x actor s) Reports := by
  unfold submit
  refine ensures_bind fun _ _ => ensures_bind fun _ _ => ensures_bind fun _ _ => ?_
  refine ensures_bind fun _ _ => ensures_bind fun _ _ => ensures_bind fun _ _ => ?_
  exact ensures_bind fun _ _ => ensures_finish

omit [Target] in
/-- of an approval, -/
theorem ensures_approve : Ensures (approve x actor s) Reports := by
  unfold approve
  refine ensures_bind fun _ _ => ensures_bind fun _ _ => ensures_bind fun _ _ => ?_
  exact ensures_bind fun _ _ => ensures_bind fun _ _ => ensures_bind fun _ _ => ensures_finish

/-- of a transfer, -/
theorem ensures_dispatch {kind idx : U8} {amount : U128} :
    Ensures (dispatch x s kind idx amount) Reports := by
  unfold dispatch
  refine ensures_bind fun _ _ => ensures_bind fun _ _ => ensures_bind fun _ _ => ?_
  exact ensures_bind fun out hout => ensures_pure (ensures_finish out hout)

/-- of any method, -/
theorem ensures_manage : Ensures (manage x actor s) Reports := by
  unfold manage
  refine Ensures.ite (fun _ => ensures_submit) fun _ => Ensures.ite (fun _ => ensures_approve) ?_
  intro _
  refine Ensures.ite (fun _ => ?_) fun _ => Ensures.ite (fun _ => ?_) fun _ => ensures_error _
  · unfold pay
    refine ensures_bind fun _ _ => ensures_bind fun _ _ => ensures_bind fun _ _ => ?_
    exact ensures_bind fun _ _ => ensures_dispatch
  · unfold refund
    refine ensures_bind fun _ _ => ensures_bind fun _ _ => ensures_bind fun _ _ => ?_
    exact ensures_bind fun _ _ => ensures_bind fun _ _ => ensures_dispatch

/-- and of a callback. -/
theorem ensures_callback : Ensures (callback x s) Reports := by
  unfold callback
  split
  next source message hcaller hmessage =>
    refine ensures_bind fun _ _ => ensures_bind fun _ _ => ensures_bind fun _ _ => ?_
    exact ensures_finish
  next => exact ensures_error _

/-- **The reports of the escrow.** -/
theorem ensures_process : Ensures (process x) Reports := by
  unfold process
  refine ensures_bind fun s _ => Ensures.ite (fun _ => ensures_callback) fun _ => ?_
  split
  next => exact ensures_error _
  next actor hcaller =>
    refine Ensures.ite (fun _ => ensures_status) fun _ => ?_
    refine Ensures.ite (fun _ => ensures_topup) fun _ => ensures_bind fun _ _ => ?_
    refine Ensures.ite (fun _ => ensures_fund) fun _ => ?_
    exact ensures_bind fun _ _ => ensures_bind fun _ _ => ensures_manage

/-- The deployment answers with a report. -/
theorem ensures_initializeEscrow : Ensures (initializeEscrow x) Reports := by
  unfold initializeEscrow
  refine ensures_bind fun _ _ => ensures_bind fun _ _ => ensures_bind fun _ _ => ?_
  exact ensures_bind fun _ _ => ensures_bind fun _ _ => ensures_bind fun _ _ => ensures_finish

/-! ## The escrow -/

/-- No step answers the reserved upgrade method. -/
theorem Step.methodId_ne (h : Step x s t o) : x.message.methodId ≠ codeUpgradeMethodId := by
  have hcallback : Ids.callback ≠ codeUpgradeMethodId := by decide
  cases h with
  | status ask => exact methodId_ne_of_asks ask (by decide)
  | topup ask => exact methodId_ne_of_asks ask (by decide)
  | fund ask => exact methodId_ne_of_asks ask (by decide)
  | submit ask => exact methodId_ne_of_asks ask (by decide)
  | approve ask => exact methodId_ne_of_asks ask (by decide)
  | pay ask => exact methodId_ne_of_asks ask (by decide)
  | refund ask => exact methodId_ne_of_asks ask (by decide)
  | receipt ret ok => exact methodId_ne_of_returns ret ok.method_eq hcallback
  | bounce ret ok => exact methodId_ne_of_returns ret ok.method_eq hcallback

omit [Target] in
/-- The transfer of a state goes to an account that exists. -/
theorem briefTransfer_transfer (h : s.config.Valid) : BriefTransfer s.transfer := by
  have hrecipient (kind : U8) : nonzeroAddress (s.config.recipient kind) := by
    unfold Config.recipient
    split_ifs
    · exact h.payTo_ne_zero
    · exact h.refundTo_ne_zero
  have hhandler : Ids.callback ≠ 0 := by decide
  have hbody : (paymentBody s.pending).length ≤ 32 := by simp [paymentBody]
  exact ⟨briefIntent_of_amount (hrecipient _) le_rfl hbody, hhandler⟩

/-- Every transfer goes to an account that exists. -/
theorem Step.briefTransfer (h : Step x s t o) (hs : s.Valid) :
    ∀ transfer ∈ o, BriefTransfer transfer := by
  have hvalid := hs.config
  cases h
  case pay | refund =>
    rintro _ ⟨⟩
    exact briefTransfer_transfer hvalid
  all_goals
    intro _ hno
    cases hno

/-- **The escrow** passes the gate. -/
theorem passes_escrow : Passes escrow := by
  apply passes_of_steps escrow_implements
  case hlength =>
    intro s
    rw [State.length_encode]
    decide
  case hinit => exact fun _ => raises_initializeEscrow
  case hdeployed => exact fun _ _ => initializeEscrow_ok
  case hcreated => exact fun _ => ensures_initializeEscrow
  case hprocess => exact fun _ _ hs hstate => (process_codes hs hstate).imp fun _ he => he.1
  case hstep => exact fun _ _ _ => process_ok
  case hreports => exact fun _ => ensures_process
  case hmethod => exact fun _ _ _ _ => Step.methodId_ne
  case htransfer => exact fun _ _ _ _ hs hstep => hstep.briefTransfer hs

/-! ## The receiver -/

/-- The states of a receiver. -/
def Sized (b : Bytes) : Prop := b.length = receiverBytes

section

variable {b : Bytes}

omit [Target] in
/-- A patch inside a state makes a state. -/
theorem Sized.patched (h : Sized b) {o : ℕ} {u : Bytes} (hfits : o + u.length ≤ receiverBytes) :
    Sized (patch b o u) := by
  unfold Sized at h ⊢
  rw [← h] at hfits
  rw [length_patch hfits, h]

/-- A receiver starts with a state of its size, -/
theorem ensures_initializeReceiver :
    Ensures (initializeReceiver x) fun out => ∃ next, Sized next ∧ out = reply next [] [] := by
  unfold initializeReceiver
  split
  next => exact ensures_error _
  next owner hcaller =>
    refine ensures_bind fun _ _ => ensures_pure ⟨_, ?_, rfl⟩
    have hzeros : Sized (zeros receiverBytes).val := (zeros receiverBytes).property
    apply hzeros.patched
    rw [owner.property]
    decide

/-- and keeps the size when it is configured. -/
theorem ensures_configured (h : Sized b) : Ensures (configured x b) Sized := by
  unfold configured
  refine Ensures.ite (fun _ => ?_) fun _ => ?_
  · unfold bindSource
    refine ensures_bind fun _ _ => ensures_bind fun a _ => ensures_bind fun _ _ => ensures_pure ?_
    apply h.patched
    rw [a.length_toBytes]
    decide
  · unfold setReject
    refine ensures_bind fun _ _ => ensures_pure (h.patched ?_)
    simp [receiverBytes]

/-- **A receipt** is passed back to the escrow. -/
theorem ensures_receive (h : Sized b) {source : AccountAddress} {message : InternalMessage}
    (hmessage : x.message = .internal message) :
    Ensures (receive source message b) fun out => ∃ next result intents,
      Sized next ∧ Replies x result intents ∧ out = reply next result intents := by
  unfold receive
  refine ensures_bind fun _ _ => ensures_bind fun _ hguard => ensures_bind fun _ _ => ?_
  refine ensures_bind fun _ hform => ensures_bind fun attempt _ => ensures_bind fun _ _ => ?_
  refine ensures_bind fun _ _ => ensures_bind fun _ _ => ensures_bind fun _ _ => ?_
  refine ensures_bind fun total _ => ensures_bind fun _ _ => ensures_bind fun count _ => ?_
  refine ensures_pure ⟨_, _, [], ?_, ?_, rfl⟩
  · have hsize : receiverBytes = 136 := rfl
    have hattempt : (toLe attempt).length = 8 := length_toLe attempt
    have htotal : (toLe total).length = 16 := length_toLe total
    have hcount : (toLe count).length = 8 := length_toLe count
    exact ((h.patched (by omega)).patched (by omega)).patched (by omega)
  · have hguard := failIf_ok_iff.mp hguard
    have hform := failIf_ok_iff.mp hform
    unfold MalformedTransfer at hform
    push Not at hguard hform
    obtain ⟨-, hmethod, -, hrequest⟩ := hguard
    refine ⟨?_, .inl ?_, hform.1.1.le, Nat.zero_le _, nofun⟩
    · rw [hmessage]
      show message.methodId ≠ codeUpgradeMethodId
      rw [hmethod]
      decide
    · rw [hmessage]
      exact hrequest

/-- **The replies of a receiver.** -/
theorem ensures_processReceiver (h : Sized x.state) :
    Ensures (processReceiver x) fun out => ∃ next result intents,
      Sized next ∧ Replies x result intents ∧ out = reply next result intents := by
  unfold processReceiver
  refine ensures_bind fun _ _ => ensures_bind fun owner _ => Ensures.ite (fun hmethod => ?_) ?_
  · have hne : x.message.methodId ≠ codeUpgradeMethodId := by
      rcases hmethod with hmethod | hmethod <;> rw [hmethod] <;> decide
    unfold configure
    refine ensures_bind fun _ _ => ensures_bind fun _ _ => ensures_bind fun next hnext => ?_
    exact ensures_pure ⟨_, _, _, ensures_configured h next hnext, replies_nil hne, rfl⟩
  · intro _
    split
    next source message hcaller hmessage => exact ensures_receive h hmessage
    next => exact ensures_error _

end

/-- **The receiver** passes the gate. -/
theorem passes_receiver : Passes receiver := by
  refine passes_of_replies raises_initializeReceiver raises_processReceiver (fun b hb => ?_)
    (fun _ => ensures_initializeReceiver) fun _ => ensures_processReceiver
  unfold Sized at hb
  rw [hb]
  decide

end

end AvmSdk.Escrow
