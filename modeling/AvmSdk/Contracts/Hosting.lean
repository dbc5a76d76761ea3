import AvmSdk.Contracts.Audit.Gate
import AvmSdk.Contracts.Token.Token
import AvmSdk.Sdk.Runtime.Hosting

/-!
# Hosted contracts

A contract that passes the gate loses no answer when it is hosted: all that can still fail is the room
in the arena, for a message and the answer to it.

* `Regular`: the messages of a run in the mode of the example contracts. `Roomy`: they fit.
* `hosted_iff_of_passes`: the runs of a hosted contract that passes.
* `passes_fungibleToken`: the token passes.
* `contracts_hosted`: the runs of the hosted contracts.
-/

namespace AvmSdk.Contracts

open Wire Sdk

/-- **The messages** of a run: a deployment and then calls, all of them asking for a full state. -/
structure Regular (start : MessageInput) (calls : List Call) : Prop where
  deploys : start.message.isDeploy
  start_mode : start.requiredStateOutputMode = .fullReplace
  calls_ok : ∀ c ∈ calls, ¬ c.input.message.isDeploy ∧
    c.input.requiredStateOutputMode = .fullReplace

section

variable [Target] {contract : Contract} {start : MessageInput} {calls : List Call} {state : Bytes}
  {x : MessageInput} {isInit : Bool} {N base : ℕ}

/-- Every message of a run fits into an arena, together with its answer. -/
structure Roomy (N : ℕ) (contract : Contract) (start : MessageInput) (calls : List Call) : Prop where
  start_le : start.serialize.length + (contract.init start).toBytes.length ≤ N
  calls_le : ∀ c ∈ calls,
    c.input.serialize.length + (contract.processMessage c.input).toBytes.length ≤ N

/-- A well-formed message that fits is a frame. -/
theorem exists_slice (hwf : x.WellFormed) (h : x.serialize.length ≤ usizeMax) :
    ∃ b : Slice, decodeMessageInput b.bytes = .ok x :=
  ⟨⟨x.serialize, h⟩, (decodeMessageInput_ok_iff _ x).mpr ⟨rfl, hwf⟩⟩

/-- A deployment of a contract that passes is lost only for want of room. -/
theorem Passes.fits_start_iff (h : Passes contract) (hN : N < 2 ^ 32) (hwf : start.WellFormed)
    (hmode : start.requiredStateOutputMode = .fullReplace) (hdeploys : start.message.isDeploy) :
    contract.Fits N true start ↔
      start.serialize.length + (contract.init start).toBytes.length ≤ N := by
  constructor
  · exact fun hfits => hfits.room
  · intro hroom
    obtain ⟨b, hb⟩ := exists_slice hwf (le_usizeMax (by omega))
    exact ⟨iff_of_true hdeploys rfl, h.init_ok b start hb hmode hdeploys, hroom⟩

/-- A call of a contract that passes is lost only for want of room. -/
theorem Passes.fits_call_iff (h : Passes contract) (hN : N < 2 ^ 32)
    (hrun : contract.Runs start calls state) (hwf : x.WellFormed) (hstate : x.state = state)
    (hmode : x.requiredStateOutputMode = .fullReplace) (hplain : ¬ x.message.isDeploy) :
    contract.Fits N false x ↔
      x.serialize.length + (contract.processMessage x).toBytes.length ≤ N := by
  constructor
  · exact fun hfits => hfits.room
  · intro hroom
    obtain ⟨b, hb⟩ := exists_slice hwf (le_usizeMax (by omega))
    exact ⟨iff_of_false hplain Bool.false_ne_true,
      h.process_ok start calls state hrun b x hb hstate hmode hplain, hroom⟩

/-- **A contract that passes** the gate is hosted without loss: what a host sees of a run of regular
messages is the run of the contract, if there is room for it. -/
theorem hosted_iff_of_passes (h : Passes contract) (hbase : 1 ≤ base) (hend : base + N ≤ 2 ^ 32)
    (hregular : Regular start calls) : contract.HostedRuns N base start calls state ↔
      contract.Runs start calls state ∧ Roomy N contract start calls := by
  have hN : N < 2 ^ 32 := by omega
  have hstart (state : Bytes) : contract.HostedStarts N base start state ↔
      contract.Starts start state ∧
        start.serialize.length + (contract.init start).toBytes.length ≤ N :=
    (Contract.hostedStarts_iff hbase hend).trans
      (and_congr_right fun hstarts =>
        h.fits_start_iff hN hstarts.1 hregular.start_mode hregular.deploys)
  have hcall (calls : List Call) (state : Bytes) (c : Call) (next : Bytes)
      (hrun : contract.Runs start calls state) (hc : ¬ c.input.message.isDeploy ∧
        c.input.requiredStateOutputMode = .fullReplace) :
      contract.HostedCalls N base state c next ↔ contract.Calls state c next ∧
        c.input.serialize.length + (contract.processMessage c.input).toBytes.length ≤ N :=
    (Contract.hostedCalls_iff hbase hend).trans
      (and_congr_right fun hcalls => h.fits_call_iff hN hrun hcalls.1 hcalls.2.1 hc.2 hc.1)
  refine (Trace.Run.restrict_iff hregular.calls_ok hstart hcall).trans ?_
  constructor
  · rintro ⟨hrun, hroom, hrooms⟩
    exact ⟨hrun, hroom, hrooms⟩
  · rintro ⟨hrun, hroom, hrooms⟩
    exact ⟨hrun, hroom, hrooms⟩

end

/-! ## The token -/

section

open Token

variable [Target] {x : MessageInput}

omit [Target] in
/-- A ledger has the same length whatever is in it. -/
theorem length_encode_ledger (s : Ledger) : s.encode.length = 336 := by
  have hslots : ((s.holders.take holderSlots).flatMap Ledger.holderFormat.enc).length =
      (s.holders.take holderSlots).length * 40 := Ledger.holderFormat.length_flatMap_enc _
  have hlengths : [toLe s.supply, toLe ((tryFromUsize 32 s.holders.length).getD (BitVec.allOnes 32)),
      (zeros 4).val, (s.holders.take holderSlots).flatMap Ledger.holderFormat.enc,
      (zeros ((holderSlots - s.holders.length) * slotBytes)).val].map List.length =
      [8, 4, 4, (s.holders.take holderSlots).length * 40, (8 - s.holders.length) * 40] := by
    simp only [List.map_cons, List.map_nil, hslots, length_toLe, length_bytesN]
  rw [Ledger.encode, length_flatten_of_lengths hlengths]
  simp only [List.sum_cons, List.sum_nil, List.length_take]
  show _ + (_ + (_ + (min 8 _ * 40 + _))) = _
  omega

omit [Target] in
/-- The report of a transfer. -/
theorem reports_transferred {ledger : Ledger} {payer payee : Bytes32} {amount : U64} :
    Ensures (transferred ledger payer payee amount) Reports := by
  intro out hout
  unfold transferred at hout
  obtain ⟨b, hb, hout⟩ := bind_ok_iff.mp hout
  rw [mapError_ok_iff] at hb
  rw [pure_ok_iff] at hout
  subst hout
  have hlength := length_le_of_encodeEventFields hb
  have hname : (asBytes "token.transferred").length = 17 := by decide
  have hshaped : EventIntent.Shaped ⟨0, .external, transferredEventClass, "token.transferred",
      [payer.val, payee.val], b⟩ := by
    refine ⟨?_, ?_, ?_, ?_, canonicalFields_iff.mpr ⟨_, hb⟩⟩
    · rw [hname]
      decide
    · simp
    · simp [payer.property, payee.property]
    · dsimp only
      simp only [List.length_cons, List.length_nil] at hlength
      omega
  refine List.forall_mem_singleton.mpr ⟨⟨hshaped, ?_⟩, rfl⟩
  rw [EventIntent.length_toBytes]
  simp only [List.length_cons, List.length_nil] at hlength
  simp [hname, payer.property, payee.property]
  omega

omit [Target] in
/-- The errors of a transfer. -/
theorem raises_transfer {ledger : Ledger} {payer payee : Bytes32} {amount : U64} :
    Raises (ledger.transfer payer payee amount) ErrorCode := by
  unfold Ledger.transfer Ledger.credit
  refine (raises_okOr fun _ => errorCode rfl).bind fun _ _ =>
    (raises_okOr fun _ => errorCode rfl).bind fun _ _ => ?_
  split
  · exact (raises_okOr fun _ => errorCode rfl).bind fun _ _ => raises_pure _
  · exact (raises_failIf fun _ => errorCode rfl).bind fun _ _ => raises_pure _

/-- The errors of a message to a token. -/
theorem raises_tokenProcess : Raises (process x) ErrorCode := by
  unfold process
  split
  next => exact raises_error (errorCode rfl)
  next payer hcaller =>
    refine (raises_failIf fun _ => errorCode rfl).bind fun _ _ =>
      (raises_okOr fun _ => errorCode rfl).bind fun args _ => ?_
    obtain ⟨payee, amount⟩ := args
    exact (raises_okOr fun _ => errorCode rfl).bind fun ledger _ =>
      raises_transfer.bind fun t _ => raises_transferred

/-- **The token** passes the gate. -/
theorem passes_fungibleToken : Passes fungibleToken := by
  apply passes_of_steps fungibleToken_implements
  case hlength =>
    intro s
    rw [length_encode_ledger]
    decide
  case hinit =>
    intro x
    unfold initialToken
    split
    · exact raises_error (errorCode rfl)
    · exact raises_transferred
  case hdeployed => exact fun _ _ => initialToken_ok
  case hcreated =>
    intro x
    unfold initialToken
    split
    · exact ensures_error _
    · exact reports_transferred
  case hprocess => exact fun _ _ _ _ => raises_tokenProcess
  case hstep =>
    intro x s out hs hstate hok
    obtain ⟨payer, payee, amount, t, hmessage, htransfer, hout⟩ := (process_ok_iff hs hstate).mp hok
    obtain ⟨e, rfl⟩ := transferred_inv hout
    exact ⟨t, none, e, ⟨rfl, payer, payee, amount, hmessage, htransfer⟩, rfl⟩
  case hreports =>
    intro x
    unfold process
    split
    · exact ensures_error _
    · refine ensures_bind fun _ _ => ensures_bind fun args _ => ?_
      obtain ⟨payee, amount⟩ := args
      exact ensures_bind fun _ _ => ensures_bind fun _ _ => reports_transferred
  case hmethod =>
    rintro x s t o ⟨-, payer, payee, amount, hmessage, -⟩
    rw [hmessage.method_eq]
    decide
  case htransfer =>
    rintro x s t o - ⟨rfl, -⟩ transfer hno
    cases hno

/-! ## The contracts -/

/-- The contracts of the examples that pass the gate. -/
def hostedContracts : List Contract :=
  [Hub.revenueVault, Hub.payoutReceiver, Vesting.vesting, Vesting.receiver, Escrow.escrow,
    Escrow.receiver, fungibleToken]

/-- The hosted contracts pass the gate. -/
theorem passes_of_mem {contract : Contract} (h : contract ∈ hostedContracts) : Passes contract := by
  simp only [hostedContracts, List.mem_cons, List.not_mem_nil, or_false] at h
  rcases h with rfl | rfl | rfl | rfl | rfl | rfl | rfl
  · exact Hub.passes_revenueVault
  · exact Hub.passes_payoutReceiver
  · exact Vesting.passes_vesting
  · exact Vesting.passes_receiver
  · exact Escrow.passes_escrow
  · exact Escrow.passes_receiver
  · exact passes_fungibleToken

/-- **Hosted contracts.** What a host gets to see of the vault, the vesting contract, the escrow, their
receivers and the token, through the memory of a module with 32-bit addresses, are the runs of these
contracts for which the arena has room; nothing else is ever lost, and nothing is made up. -/
theorem contracts_hosted {N base : ℕ} (hbase : 1 ≤ base) (hend : base + N ≤ 2 ^ 32)
    {contract : Contract} (hcontract : contract ∈ hostedContracts) {start : MessageInput}
    {calls : List Call} (hregular : Regular start calls) (state : Bytes) :
    contract.HostedRuns N base start calls state ↔
      contract.Runs start calls state ∧ Roomy N contract start calls :=
  hosted_iff_of_passes (passes_of_mem hcontract) hbase hend hregular

end

section

open Token

/-- A hosted token with a transfer. -/
theorem contracts_hosted_sample :
    letI := Target.wasm32
    fungibleToken.HostedRuns (2 ^ 16) 1 sampleStart
      [⟨sampleTransfer, fungibleToken.processMessage sampleTransfer⟩] sampleLedger.encode := by
  let _ := Target.wasm32
  have hcontract : fungibleToken ∈ hostedContracts := by simp [hostedContracts]
  have hregular : Regular sampleStart
      [⟨sampleTransfer, fungibleToken.processMessage sampleTransfer⟩] :=
    ⟨by decide, rfl, List.forall_mem_singleton.mpr ⟨by decide, rfl⟩⟩
  have hroomy : Roomy (2 ^ 16) fungibleToken sampleStart
      [⟨sampleTransfer, fungibleToken.processMessage sampleTransfer⟩] :=
    ⟨by decide +kernel, List.forall_mem_singleton.mpr (by decide +kernel)⟩
  exact (contracts_hosted (by decide) (by decide) hcontract hregular _).mpr ⟨sampleRun, hroomy⟩

end

end AvmSdk.Contracts
