import AvmSdk.Contracts.Gate
import AvmSdk.Contracts.Hub.Machine
import AvmSdk.Contracts.Hub.Receiver

/-!
# The hub at the gate

The vault and its receivers answer nothing that the gate of the guest crate refuses.

* `brief_of_event`: the events of the hub are short.
* `passes_revenueVault`: the vault. Its payments go to accounts that exist.
* `passes_payoutReceiver`: a receiver. The ledger that it reports to is set at its deployment.
-/

namespace AvmSdk.Hub

open Wire Sdk Contracts

/-! ## Events -/

/-- The events of the hub are short. -/
theorem brief_of_event {k : U32} {name : String} {fields : List EventField} {e : EventIntent}
    (h : event k name fields = .ok e) (hfew : fields.length ≤ 16) :
    BriefEvent e ∧ e.inputIndex = k := by
  simp only [event, bind_ok_iff, mapError_ok_iff, pure_ok_iff] at h
  obtain ⟨id, hname, b, hb, rfl⟩ := h
  have hshort : (asBytes name).length ≤ 2 ^ 8 := by
    unfold eventClass at hname
    split at hname
    all_goals first | decide | cases hname
  refine ⟨briefEvent_of_fields hb ?_ hshort (Nat.zero_le 1) (List.forall_mem_nil _), rfl⟩
  rw [List.length_mergeSort]
  exact hfew

section

variable [Target] {x : MessageInput} {s t : State} {o : Option Transfer} {actor : Bytes32}

/-- A report carries the state and one event. -/
theorem ensures_finish {name : String} {index : U8} {amount : U128} :
    Ensures (finish s name index amount) Reports := by
  unfold finish
  refine ensures_bind fun _ _ => ensures_bind fun _ _ => ensures_bind fun _ _ => ?_
  refine ensures_bind fun _ _ => ensures_bind fun e he => ensures_pure ?_
  exact List.forall_mem_singleton.mpr (brief_of_event he (by simp))

/-- The reports of the handler, method by method: every path ends in `finish`. -/
theorem ensures_claim : Ensures (claim x actor s) Reports := by
  unfold claim
  refine ensures_bind fun _ _ => ensures_bind fun _ _ => ensures_bind fun _ _ => ?_
  refine ensures_bind fun _ _ => ensures_bind fun _ _ => ensures_bind fun _ _ => ?_
  refine ensures_bind fun _ _ => ensures_bind fun _ _ => ensures_bind fun out hout => ?_
  exact ensures_pure (ensures_finish out hout)

/-- A proposal answers with a report, -/
theorem ensures_propose : Ensures (propose x actor s) Reports := by
  unfold propose
  refine ensures_bind fun _ _ => ensures_bind fun _ _ => ensures_bind fun _ _ => ?_
  refine ensures_bind fun _ _ => ensures_bind fun _ _ => ensures_bind fun _ _ => ?_
  exact ensures_bind fun _ _ => ensures_finish

/-- and so do a vote, -/
theorem ensures_vote : Ensures (vote x actor s) Reports := by
  unfold vote
  refine ensures_bind fun _ _ => ensures_bind fun _ _ => ensures_bind fun _ _ => ?_
  refine ensures_bind fun _ _ => ensures_bind fun _ _ => ensures_bind fun _ _ => ensures_finish

/-- an execution, -/
theorem ensures_execute : Ensures (execute x s) Reports := by
  unfold execute
  refine ensures_bind fun _ _ => ensures_bind fun _ _ => ensures_bind fun _ _ => ?_
  refine ensures_bind fun _ _ => ensures_bind fun _ _ => ensures_bind fun _ _ => ?_
  exact ensures_bind fun _ _ => ensures_bind fun _ _ => ensures_finish

/-- a callback, -/
theorem ensures_callback : Ensures (callback x s) Reports := by
  unfold callback
  split
  next source message hcaller hmessage =>
    refine ensures_bind fun _ _ => ensures_bind fun _ _ => ensures_bind fun _ _ => ?_
    refine Ensures.ite (fun _ => ?_) fun _ => ?_
    · exact ensures_bind fun _ _ => ensures_finish
    · exact ensures_bind fun _ _ => ensures_finish
  next => exact ensures_error _

/-- the fees, -/
theorem ensures_topup : Ensures (topup x s) Reports := by
  unfold topup
  exact ensures_bind fun _ _ => ensures_bind fun _ _ => ensures_finish

/-- the status -/
theorem ensures_status : Ensures (status x s) Reports := by
  unfold status
  exact ensures_bind fun _ _ => ensures_finish

/-- and a deposit. -/
theorem ensures_deposit : Ensures (deposit x s) Reports := by
  unfold deposit
  refine ensures_bind fun _ _ => ensures_bind fun _ _ => ensures_bind fun _ _ => ?_
  refine ensures_bind fun _ _ => ensures_bind fun _ _ => ensures_bind fun _ _ => ?_
  exact ensures_bind fun _ _ => ensures_finish

/-- **The reports of the vault.** -/
theorem ensures_process : Ensures (process x) Reports := by
  unfold process
  refine ensures_bind fun s _ => Ensures.ite (fun _ => ensures_callback) fun _ => ?_
  split
  next => exact ensures_error _
  next actor hcaller =>
    refine Ensures.ite (fun _ => ensures_topup) fun _ => ?_
    refine Ensures.ite (fun _ => ensures_deposit) fun _ => ensures_bind fun _ _ => ?_
    refine Ensures.ite (fun _ => ensures_status) fun _ => ?_
    refine Ensures.ite (fun _ => ensures_claim) fun _ => ?_
    refine Ensures.ite (fun _ => ensures_propose) fun _ => ?_
    refine Ensures.ite (fun _ => ensures_vote) fun _ => ?_
    exact Ensures.ite (fun _ => ensures_execute) fun _ => ensures_error _

/-- The deployment answers with a report. -/
theorem ensures_initializeVault : Ensures (initializeVault x) Reports := by
  unfold initializeVault
  refine ensures_bind fun _ _ => ensures_bind fun _ _ => ?_
  split
  next => exact ensures_error _
  next =>
    refine ensures_bind fun _ _ => ensures_bind fun _ _ => ensures_bind fun _ _ => ?_
    exact ensures_finish

/-! ## The vault -/

/-- No step answers the reserved upgrade method. -/
theorem Step.methodId_ne (h : Step x s t o) : x.message.methodId ≠ codeUpgradeMethodId := by
  have hcallback : Ids.callback ≠ codeUpgradeMethodId := by decide
  cases h with
  | topup ask => exact methodId_ne_of_asks ask (by decide)
  | deposit ask => exact methodId_ne_of_asks ask (by decide)
  | status ask => exact methodId_ne_of_asks ask (by decide)
  | claim ask => exact methodId_ne_of_asks ask (by decide)
  | propose ask => exact methodId_ne_of_asks ask (by decide)
  | vote ask => exact methodId_ne_of_asks ask (by decide)
  | execute ask => exact methodId_ne_of_asks ask (by decide)
  | receipt ret ok => exact methodId_ne_of_returns ret ok.method_eq hcallback
  | bounce ret ok => exact methodId_ne_of_returns ret ok.method_eq hcallback

/-- Every payment goes to an account that exists. -/
theorem Step.briefTransfer (h : Step x s t o) (hs : s.Stored) :
    ∀ transfer ∈ o, BriefTransfer transfer := by
  cases h
  case claim i nonce ask free ok =>
    rintro _ ⟨⟩
    have hdestination := hs.valid.config.destination_ne_zero _ ok.index_lt
    have hhandler : Ids.callback ≠ 0 := by decide
    refine ⟨briefIntent_of_amount hdestination le_rfl ?_, hhandler⟩
    rw [length_paymentBody]
    decide
  all_goals
    intro _ hno
    cases hno

/-- **The vault** passes the gate. -/
theorem passes_revenueVault : Passes revenueVault := by
  apply passes_of_steps revenueVault_implements
  case hlength =>
    intro s
    rw [State.length_encode]
    decide
  case hinit => exact fun _ => raises_initializeVault
  case hdeployed => exact fun _ _ => initializeVault_ok
  case hcreated => exact fun _ => ensures_initializeVault
  case hprocess => exact fun _ _ hs hstate => (process_codes hs hstate).imp fun _ he => he.1
  case hstep => exact fun _ _ _ => process_ok
  case hreports => exact fun _ => ensures_process
  case hmethod => exact fun _ _ _ _ => Step.methodId_ne
  case htransfer => exact fun _ _ _ _ hs hstep => hstep.briefTransfer hs

/-! ## The receiver -/

/-- The states of a receiver that has a ledger to report to. -/
structure HasAudit (b : Bytes) : Prop where
  length_eq : b.length = receiverBytes
  audit_at : ∃ audit : AccountAddress, nonzeroAddress audit ∧ StandsAt b 32 audit.toBytes

section

variable {b : Bytes}

omit [Target] in
/-- A patch behind the address of the ledger keeps it. -/
theorem HasAudit.patched (h : HasAudit b) {o : ℕ} {u : Bytes} (ho : 96 ≤ o)
    (hfits : o + u.length ≤ receiverBytes) : HasAudit (patch b o u) := by
  obtain ⟨audit, hne, haudit⟩ := h.audit_at
  have hpatch : o + u.length ≤ b.length := by
    rw [h.length_eq]
    exact hfits
  refine ⟨(length_patch hpatch).trans h.length_eq, audit, hne, haudit.patched hpatch (.inl ?_)⟩
  rw [audit.length_toBytes]
  exact ho

/-- A receiver is deployed with a ledger. -/
theorem ensures_initializeReceiver :
    Ensures (initializeReceiver x) fun out => ∃ next, HasAudit next ∧ out = reply next [] [] := by
  unfold initializeReceiver
  split
  next => exact ensures_error _
  next owner hcaller =>
    refine ensures_bind fun deploy _ => ensures_bind fun _ _ => ensures_bind fun audit _ => ?_
    refine ensures_bind fun fuel _ => ensures_bind fun _ hguard => ensures_pure ⟨_, ?_, rfl⟩
    have hguard := failIf_ok_iff.mp hguard
    push Not at hguard
    have hsize : receiverBytes = 224 := rfl
    have hlen : (zeros receiverBytes).val.length = 224 := (zeros receiverBytes).property
    have howner : owner.val.length = 32 := owner.property
    have haudit : audit.toBytes.length = 64 := audit.length_toBytes
    have hfuel : (toLe fuel).length = 16 := length_toLe fuel
    have hfirst : (patch (zeros receiverBytes).val 0 owner.val).length = 224 :=
      (length_patch (by omega)).trans hlen
    have hfits : 32 + audit.toBytes.length ≤ (patch (zeros receiverBytes).val 0 owner.val).length := by
      omega
    have hset : HasAudit (putAddress (patch (zeros receiverBytes).val 0 owner.val) 32 audit) :=
      ⟨(length_patch hfits).trans hfirst, audit, hguard.1, standsAt_patch hfits⟩
    apply (hset.patched (by omega) (by simp [hsize])).patched (by omega)
    omega

/-- A receiver keeps its ledger when it is bound, -/
theorem ensures_bindVault (h : HasAudit b) : Ensures (bindVault x b) HasAudit := by
  unfold bindVault
  refine ensures_bind fun _ _ => ensures_bind fun vault _ => ensures_bind fun _ _ => ensures_pure ?_
  apply h.patched le_rfl
  rw [vault.length_toBytes]
  decide

omit [Target] in
/-- and when it is told what to answer. -/
theorem ensures_setFlag (h : HasAudit b) : Ensures (setFlag x b) HasAudit := by
  unfold setFlag
  refine ensures_bind fun _ _ => ensures_pure (h.patched ?_ ?_)
  · split_ifs <;> decide
  · split_ifs <;> simp [receiverBytes]

/-- **A receipt** is passed back to the vault, and reported to the ledger once or twice. -/
theorem ensures_receive (h : HasAudit b) {source : AccountAddress} {message : InternalMessage}
    (hmessage : x.message = .internal message) :
    Ensures (receive source message b) fun out => ∃ next result intents,
      HasAudit next ∧ Replies x result intents ∧ out = reply next result intents := by
  obtain ⟨audit, hne, haudit⟩ := h.audit_at
  have hsize : receiverBytes = 224 := rfl
  have hlen := h.length_eq
  have hread : addressAt eArgs b 32 = .ok audit := addressAt_of_standsAt (by omega) haudit
  unfold receive
  refine ensures_bind fun _ _ => ensures_bind fun _ hguard => ensures_bind fun _ _ => ?_
  refine ensures_bind ?_
  rintro ⟨index, nonce, amount⟩ hbody
  refine ensures_bind fun _ _ => ensures_bind fun _ _ => ensures_bind fun _ _ => ?_
  refine ensures_bind fun total _ => ensures_bind fun _ _ => ensures_bind fun count _ => ?_
  rw [hread, ok_bind]
  refine ensures_bind fun fuel _ => ensures_pure ⟨_, _, _, ?_, ?_, rfl⟩
  · have hnonce : (toLe nonce).length = 8 := length_toLe nonce
    have htotal : (toLe total).length = 16 := length_toLe total
    have hcount : (toLe count).length = 8 := length_toLe count
    exact ((h.patched (by omega) (by omega)).patched (by omega) (by omega)).patched (by omega)
      (by omega)
  · have hguard := failIf_ok_iff.mp hguard
    push Not at hguard
    obtain ⟨-, hmethod, hrequest, -⟩ := hguard
    obtain ⟨byte, -, -, -, -, hpayment⟩ := readPayment_ok_iff.mp hbody
    have hshort : message.body.length ≤ 32 := by
      rw [hpayment, length_paymentBody]
      decide
    have hreport (fuel : U128) : BriefIntent (auditReport audit fuel message.body) :=
      briefIntent_of_amount hne (Nat.zero_le 1) hshort
    refine ⟨?_, .inl ?_, hshort, ?_, ?_⟩
    · rw [hmessage]
      show message.methodId ≠ codeUpgradeMethodId
      rw [hmethod]
      decide
    · rw [hmessage]
      exact hrequest
    · split_ifs <;> simp
    · split_ifs <;> simp [hreport]

/-- **The replies of a receiver.** -/
theorem ensures_processReceiver (h : HasAudit x.state) :
    Ensures (processReceiver x) fun out => ∃ next result intents,
      HasAudit next ∧ Replies x result intents ∧ out = reply next result intents := by
  unfold processReceiver
  refine ensures_bind fun _ _ => ensures_bind fun owner _ => ?_
  refine Ensures.ite (fun hstatus => ?_) fun _ => Ensures.ite (fun hmethod => ?_) fun _ => ?_
  · have hne : x.message.methodId ≠ codeUpgradeMethodId := by
      rw [hstatus]
      decide
    unfold receiverStatus
    split
    next => exact ensures_error _
    next =>
      refine ensures_bind fun _ _ => ensures_bind fun _ _ => ensures_pure ?_
      exact ⟨_, _, _, h, replies_nil hne, rfl⟩
  · have hne : x.message.methodId ≠ codeUpgradeMethodId := by
      rcases hmethod with hmethod | hmethod | hmethod <;> rw [hmethod] <;> decide
    unfold manage
    refine ensures_bind fun _ _ => ensures_bind fun _ _ => Ensures.ite (fun _ => ?_) fun _ => ?_
    · refine ensures_bind fun next hnext => ensures_pure ⟨_, _, _, ?_, replies_nil hne, rfl⟩
      exact ensures_bindVault h next hnext
    · refine ensures_bind fun next hnext => ensures_pure ⟨_, _, _, ?_, replies_nil hne, rfl⟩
      exact ensures_setFlag h next hnext
  · split
    next source message hcaller hmessage => exact ensures_receive h hmessage
    next => exact ensures_error _

end

/-- **The receiver** passes the gate. -/
theorem passes_payoutReceiver : Passes payoutReceiver := by
  refine passes_of_replies raises_initializeReceiver raises_processReceiver (fun b hb => ?_)
    (fun _ => ensures_initializeReceiver) fun _ => ensures_processReceiver
  rw [hb.length_eq]
  decide

end

end AvmSdk.Hub
