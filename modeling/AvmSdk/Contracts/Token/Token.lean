import AvmSdk.Contracts.Handler
import AvmSdk.Contracts.Token.Ledger
import AvmSdk.Sdk.Input.Signed
import AvmSdk.Sdk.Output.EventFields
import AvmSdk.Sdk.Output.Gate

/-!
# The fungible token

The contract `fungible-token`: its constructor mints the supply, and a signed message transfers.

* `process_ok_iff`: an accepted message is a transfer of its signer.
* `fungibleToken_implements`: the contract computes the machine of the transfers.
* `Safe`, `token_safe`: what holds of the bytes of every ledger that a token can reach.
-/

namespace AvmSdk.Token

open Wire Sdk Contracts Books

/-- Source: `MINT_SOURCE` -/
def mintSource : Bytes32 := zeros 32

/-- Source: `TRANSFER_METHOD_ID` -/
def transferMethodId : U64 := 0x2f7d5d4339128148

/-- Source: `TRANSFERRED_EVENT_CLASS` -/
def transferredEventClass : U64 := 0xdf658b5745e08f51

/-- Source: `TRANSFER_ARGS_BYTES` -/
abbrev transferArgsBytes : ℕ := 40

/-- Source: `transfer_args` -/
def transferArgs (body : Bytes) : Option (Bytes32 × U64) := do
  guard (body.length = transferArgsBytes)
  let payee ← (getRange body 0 32).bind (tryIntoArray 32)
  let amount ← (getRange body 32 body.length).bind (tryIntoArray 8)
  guard (ofLe 64 amount.val ≠ 0)
  some (payee, ofLe 64 amount.val)

/-- Source: `transferred` -/
def transferred (ledger : Ledger) (payer payee : Bytes32) (amount : U64) :
    Except U32 MessageOutput := do
  let fieldsBinary ← (encodeEventFields [
    ⟨"amount", .u64 amount⟩,
    ⟨"from", .data payer.val⟩,
    ⟨"to", .data payee.val⟩]).mapError fun _ => invalidEvent
  pure (announced ledger.encode ⟨0, .external, transferredEventClass, "token.transferred",
    [payer.val, payee.val], fieldsBinary⟩)

/-- The ledger after the deployment. Source: `FungibleToken::init`, `let ledger` -/
def minted (deployer : Bytes32) : Ledger := ⟨initialSupply, [(deployer, initialSupply)]⟩

/-- Source: `FungibleToken::init` -/
def initialToken (input : MessageInput) : Except U32 MessageOutput :=
  match input.caller with
  | .internal _ => .error externalCallerRequired
  | .external deployer => transferred (minted deployer) mintSource deployer initialSupply

section

variable [Target]

/-- Source: `FungibleToken::process_message` -/
def process (input : MessageInput) : Except U32 MessageOutput :=
  match input.caller with
  | .internal _ => .error externalCallerRequired
  | .external payer => do
      failIf (input.message.methodId ≠ transferMethodId) invalidTransferArgs
      let (payee, amount) ← okOr (transferArgs input.message.body) invalidTransferArgs
      let ledger ← okOr (Ledger.decode input.state) invalidTokenState
      let ledger ← ledger.transfer payer payee amount
      transferred ledger payer payee amount

/-- Source: `FungibleToken` -/
def fungibleToken : Contract where
  init input := orFailure (initialToken input)
  processMessage input := orFailure (process input)

end

/-! ## Messages -/

/-- A message that transfers an amount from the key that signed it. -/
structure IsTransfer (x : MessageInput) (payer payee : Bytes32) (amount : U64) : Prop where
  caller : x.caller = .external payer
  method_eq : x.message.methodId = transferMethodId
  body : x.message.body = payee.val ++ toLe amount
  amount_ne_zero : amount ≠ 0

/-- The body of a transfer is read back exactly. -/
theorem transferArgs_eq_some {body : Bytes} {payee : Bytes32} {amount : U64} :
    transferArgs body = some (payee, amount) ↔ body = payee.val ++ toLe amount ∧ amount ≠ 0 := by
  have hread (key : Bytes32) (rest : Bytes) (hrest : rest.length = 8) :
      transferArgs (key.val ++ rest) =
        if ofLe 64 rest = 0 then none else some (key, ofLe 64 rest) := by
    have hkey := getRange_append [] key.val rest
    have hamount := getRange_append key.val rest []
    rw [List.nil_append, List.length_nil, Nat.zero_add, key.property] at hkey
    rw [List.append_nil, key.property, hrest] at hamount
    have hlen : (key.val ++ rest).length = 32 + 8 := by
      rw [List.length_append, key.property, hrest]
    have htry : tryIntoArray 32 key.val = some key := tryIntoArray_eq_some.mpr rfl
    have htry' : tryIntoArray 8 rest = some ⟨rest, hrest⟩ := tryIntoArray_eq_some.mpr rfl
    simp only [transferArgs, hlen, hkey, hamount, Option.bind_some, Option.bind_eq_bind, htry, htry',
      guard_true]
    by_cases hzero : ofLe 64 rest = 0
    · rw [if_pos hzero, hzero]
      rfl
    · rw [if_neg hzero]
      simp only [hzero, not_false_eq_true, guard_true, ne_eq]
      rfl
  constructor
  · intro h
    have hlen : body.length = 40 := by
      by_contra hno
      unfold transferArgs at h
      simp [hno] at h
    have hsplit := List.take_append_drop 32 body
    have hfront : (body.take 32).length = 32 := by rw [List.length_take]; omega
    have hback : (body.drop 32).length = 8 := by rw [List.length_drop]; omega
    rw [← hsplit] at h
    have heq := hread ⟨body.take 32, hfront⟩ (body.drop 32) hback
    dsimp only at heq
    rw [h] at heq
    by_cases hzero : ofLe 64 (body.drop 32) = 0
    · rw [if_pos hzero] at heq
      exact absurd heq (Option.some_ne_none _)
    · rw [if_neg hzero, Option.some.injEq, Prod.mk.injEq] at heq
      obtain ⟨rfl, rfl⟩ := heq
      rw [toLe_ofLe (by rw [hback])]
      exact ⟨hsplit.symm, hzero⟩
  · rintro ⟨rfl, hne⟩
    rw [hread payee (toLe amount) (length_toLe amount), ofLe_toLe (by decide), if_neg hne]

variable {ledger : Ledger} {payer payee : Bytes32} {amount : U64} {out : MessageOutput}
  {x : MessageInput} {s t : Ledger}

/-- Every transfer can be reported. -/
theorem exists_transferred (ledger : Ledger) (payer payee : Bytes32) (amount : U64) :
    ∃ e, transferred ledger payer payee amount = .ok (announced ledger.encode e) := by
  have hencode : ∃ b, encodeEventFields [⟨"amount", .u64 amount⟩, ⟨"from", .data payer.val⟩,
      ⟨"to", .data payee.val⟩] = .ok b := by
    refine ⟨_, encodeEventFields_ok_iff.mpr ⟨?_, ?_, ?_, rfl⟩⟩
    · simp only [List.length_cons, List.length_nil]
      decide
    · simp only [List.forall_mem_cons, EventField.Fits, EventField.packed, EventValue.encoded,
        length_toLe, length_bytesN]
      decide
    · simp only [List.map_cons, List.map_nil, EventField.packed]
      decide
  obtain ⟨b, hb⟩ := hencode
  unfold transferred
  rw [hb]
  exact ⟨_, rfl⟩

/-- A transfer that succeeds announces the ledger with an event. -/
theorem transferred_inv (h : transferred ledger payer payee amount = .ok out) :
    ∃ e, out = announced ledger.encode e := by
  obtain ⟨e, he⟩ := exists_transferred ledger payer payee amount
  rw [he, Except.ok.injEq] at h
  exact ⟨e, h.symm⟩

/-! ## The machine -/

/-- A freshly minted supply is in order. -/
theorem valid_minted (deployer : Bytes32) : (minted deployer).Valid := by
  refine ⟨?_, List.nodup_singleton _, ?_⟩
  · show 1 ≤ 8
    decide
  · show initialSupply.toNat + 0 = initialSupply.toNat
    rfl

/-- The ledger that a deployment leaves. -/
def Deployed (x : MessageInput) (s : Ledger) : Prop :=
  ∃ deployer, x.caller = .external deployer ∧ s = minted deployer

/-- An accepted message: a transfer, which sends nothing to other accounts. -/
def Step (x : MessageInput) (s t : Ledger) (o : Option Transfer) : Prop :=
  o = none ∧ ∃ payer payee amount, IsTransfer x payer payee amount ∧
    s.transfer payer payee amount = .ok t

/-- A deployment that succeeds announces a valid ledger. -/
theorem initialToken_ok (h : initialToken x = .ok out) :
    ∃ s e, s.Valid ∧ Deployed x s ∧ out = announced s.encode e := by
  unfold initialToken at h
  split at h
  next => cases h
  next deployer hcaller =>
    obtain ⟨e, rfl⟩ := transferred_inv h
    exact ⟨minted deployer, e, valid_minted deployer, ⟨deployer, hcaller, rfl⟩, rfl⟩

/-- A transfer raises the error codes of the token, -/
theorem raises_transferred {E : U32 → Prop} : Raises (transferred ledger payer payee amount) E := by
  obtain ⟨e, he⟩ := exists_transferred ledger payer payee amount
  exact raises_of_ok ⟨_, he⟩

/-- and so does a deployment. -/
theorem raises_initialToken : Raises (initialToken x) (· ≠ 0) := by
  unfold initialToken
  split
  next => exact raises_error (by decide)
  next => exact raises_transferred

section

variable [Target]

/-- **What the handler accepts.** -/
theorem process_ok_iff (h : s.Valid) (hstate : x.state = s.encode) :
    process x = .ok out ↔ ∃ payer payee amount t, IsTransfer x payer payee amount ∧
      s.transfer payer payee amount = .ok t ∧ transferred t payer payee amount = .ok out := by
  unfold process
  rw [hstate]
  cases hcaller : x.caller with
  | «internal» source =>
      dsimp only
      constructor
      · exact fun hno => absurd hno nofun
      · rintro ⟨payer, payee, amount, t, htransfer, -⟩
        exact absurd (hcaller.symm.trans htransfer.caller) nofun
  | external payer =>
      simp only [h.decode_encode, okOr_some, ok_bind, bind_ok_iff, failIf_ok_iff, exists_const,
        okOr_ok_iff, Prod.exists, transferArgs_eq_some, not_not]
      constructor
      · rintro ⟨hmethod, payee, amount, ⟨hbody, hne⟩, t, ht, hout⟩
        exact ⟨payer, payee, amount, t, ⟨hcaller, hmethod, hbody, hne⟩, ht, hout⟩
      · rintro ⟨payer', payee, amount, t, htransfer, ht, hout⟩
        have hpayer := hcaller.symm.trans htransfer.caller
        rw [Caller.external.injEq] at hpayer
        rw [← hpayer] at ht hout
        exact ⟨htransfer.method_eq, payee, amount, ⟨htransfer.body, htransfer.amount_ne_zero⟩, t, ht,
          hout⟩

/-- The errors of the handler on a ledger in order. -/
theorem process_raises (h : s.Valid) (hstate : x.state = s.encode) :
    Raises (process x) fun e => e ≠ 0 ∧ e ≠ invalidTokenState := by
  unfold process
  split
  next => exact raises_error (by decide)
  next payer hcaller =>
    refine Raises.bind (raises_failIf fun _ => by decide) fun _ _ => ?_
    refine Raises.bind (raises_okOr fun _ => by decide) fun args _ => ?_
    obtain ⟨payee, amount⟩ := args
    rw [hstate, h.decode_encode, okOr_some]
    dsimp only
    rw [ok_bind]
    exact h.raises_transfer.bind fun t _ => raises_transferred

/-- The machine that a token runs. -/
abbrev tokenMachine : Machine Ledger := stepMachine Ledger.encode Ledger.Valid Deployed Step

/-- **The token computes its machine.** -/
theorem fungibleToken_implements : fungibleToken.Implements tokenMachine :=
  implements_stepMachine (fun _ => raises_initialToken) (fun _ _ => initialToken_ok)
    (by
      rintro x s t o hs ⟨-, payer, payee, amount, -, htransfer⟩
      exact hs.transfer htransfer)
    (fun _ _ hs hstate e he => (process_raises hs hstate e he).1)
    (by
      intro x s out hs hstate hok
      obtain ⟨payer, payee, amount, t, hmessage, htransfer, hout⟩ := (process_ok_iff hs hstate).mp hok
      obtain ⟨e, rfl⟩ := transferred_inv hout
      exact ⟨t, none, e, ⟨rfl, payer, payee, amount, hmessage, htransfer⟩, rfl⟩)

/-! ## Safety -/

/-- The answer to a transfer. -/
theorem processMessage_of_transfer (h : s.Valid) (hstate : x.state = s.encode)
    (htransfer : IsTransfer x payer payee amount) :
    ((fungibleToken.processMessage x).statusCode = 0 ↔ s.Permits payer payee amount) ∧
      ((fungibleToken.processMessage x).statusCode = 0 → ∃ t, s.Moved payer payee amount t ∧
        Ledger.decode ((fungibleToken.processMessage x).nextState x.state) = some t) := by
  have hraises := process_raises h hstate
  unfold fungibleToken
  dsimp only
  cases hresult : process x with
  | error e =>
      have hzero : e ≠ 0 := (hraises e hresult).1
      refine ⟨iff_of_false hzero fun hpermits => ?_, fun hno => absurd hno hzero⟩
      obtain ⟨t, ht⟩ := h.exists_transfer_iff.mpr hpermits
      obtain ⟨e', he'⟩ := exists_transferred t payer payee amount
      rw [(process_ok_iff h hstate).mpr ⟨payer, payee, amount, t, htransfer, ht, he'⟩] at hresult
      exact absurd hresult nofun
  | ok out =>
      obtain ⟨payer', payee', amount', t, htransfer', ht, hout⟩ :=
        (process_ok_iff h hstate).mp hresult
      -- a message is at most one transfer
      have hpayer := htransfer.caller.symm.trans htransfer'.caller
      obtain ⟨hpayee, hamount⟩ := List.append_inj (htransfer.body.symm.trans htransfer'.body)
        (by rw [payee.property, payee'.property])
      rw [Caller.external.injEq] at hpayer
      rw [← hpayer, ← Subtype.ext hpayee, ← toLe_inj (by decide) hamount] at ht
      obtain ⟨e, rfl⟩ := transferred_inv hout
      refine ⟨iff_of_true rfl (h.exists_transfer_iff.mp ⟨t, ht⟩), fun _ =>
        ⟨t, h.transfer_moved ht, ?_⟩⟩
      exact (h.transfer ht).decode_encode

/-- **Safety**: what holds of the stored bytes of a token, which are those of a ledger. -/
structure Safe (b : Bytes) (s : Ledger) : Prop where
  holders_le : s.holders.length ≤ 8
  distinct : (s.holders.map Prod.fst).Nodup
  total_eq : (s.holders.map fun holder => holder.2.toNat).sum = s.supply.toNat
  /-- The supply is the one of the deployment. -/
  supply_eq : s.supply = initialSupply
  /-- No call finds the ledger in disorder. -/
  statusCode : ∀ x : MessageInput, x.WellFormed → x.state = b →
    (fungibleToken.processMessage x).statusCode ≠ invalidTokenState
  /-- A transfer succeeds exactly when the payer can pay and there is room for the payee. -/
  permits : ∀ (x : MessageInput) (payer payee : Bytes32) (amount : U64), x.WellFormed → x.state = b →
    IsTransfer x payer payee amount →
      ((fungibleToken.processMessage x).statusCode = 0 ↔
        (∃ balance, valueOf payer s.holders = some balance ∧ amount ≤ balance) ∧
          ((valueOf payee s.holders).isSome ∨ s.holders.length < 8))
  /-- It moves the amount, and nothing else. -/
  moves : ∀ (x : MessageInput) (payer payee : Bytes32) (amount : U64), x.WellFormed → x.state = b →
    IsTransfer x payer payee amount → (fungibleToken.processMessage x).statusCode = 0 →
      ∃ t, s.Moved payer payee amount t ∧
        Ledger.decode ((fungibleToken.processMessage x).nextState b) = some t
  /-- A failure leaves the ledger. -/
  refusals : ∀ x : MessageInput, x.WellFormed → x.state = b →
    (fungibleToken.processMessage x).statusCode ≠ 0 →
      (fungibleToken.processMessage x).stateUpdate = none

/-- The supply of a run is the one of the deployment. -/
theorem supply_of_runs {start : MessageInput} {calls : List Call}
    (hrun : tokenMachine.Runs start calls s) : s.supply = initialSupply := by
  refine hrun.invariant (I := fun _ s => s.supply = initialSupply) (fun s hs => ?_)
    fun es s c t hrun hsupply hmove => ?_
  · obtain ⟨deployer, -, rfl⟩ := hs.2
    rfl
  · have hvalid := fungibleToken_implements.stored_of_runs hrun
    rcases moves_cases hmove with ⟨o, hc⟩ | ⟨rfl, -⟩
    · obtain ⟨-, payer, payee, amount, -, htransfer⟩ := hc.step
      rw [(hvalid.transfer_moved htransfer).supply_eq, hsupply]
    · exact hsupply

/-- **The token is safe**, in every ledger that it reaches. -/
theorem token_safe {start : MessageInput} {calls : List Call} {b : Bytes}
    (hrun : fungibleToken.Runs start calls b) : ∃ s, Ledger.decode b = some s ∧ Safe b s := by
  obtain ⟨s, hruns, hvalid, rfl⟩ := fungibleToken_implements.runs hrun
  refine ⟨s, hvalid.decode_encode, hvalid.holders_le, hvalid.distinct, hvalid.total_eq,
    supply_of_runs hruns, fun x _ hstate => ?_, fun x payer payee amount _ hstate htransfer => ?_,
    fun x payer payee amount _ hstate htransfer hstatus => ?_, fun x _ hstate hstatus => ?_⟩
  · have hraises := process_raises hvalid hstate
    unfold fungibleToken
    dsimp only
    cases hresult : process x with
    | error e => exact (hraises e hresult).2
    | ok out =>
        obtain ⟨_, _, _, _, -, -, hout⟩ := (process_ok_iff hvalid hstate).mp hresult
        obtain ⟨e, rfl⟩ := transferred_inv hout
        show (0 : U32) ≠ invalidTokenState
        decide
  · exact (processMessage_of_transfer hvalid hstate htransfer).1.trans
      ⟨fun h => ⟨h.covered, h.room⟩, fun h => ⟨h.1, h.2⟩⟩
  · obtain ⟨t, hmoved, hdecode⟩ := (processMessage_of_transfer hvalid hstate htransfer).2 hstatus
    rw [hstate] at hdecode
    exact ⟨t, hmoved, hdecode⟩
  · rw [fungibleToken_implements.refused x s hvalid hstate hstatus]
    rfl

end

/-! ## A token with a transfer -/

/-- A message that is signed by a key. -/
def sampleMessage (key : U8) (deploys : Bool) (state body : Bytes) : MessageInput :=
  signedInput ⟨0, 0, 0, zeros 32⟩ (.ofEntries []) state
    { pubkey := (sampleAddress key).dappId
      destination := sampleAddress 9
      deploys := deploys
      methodId := transferMethodId
      extra := .ofEntries []
      body := body }

/-- A deployment. -/
def sampleStart : MessageInput := sampleMessage 1 true [] []

/-- A transfer of 5 to a second key. -/
def sampleTransfer : MessageInput :=
  sampleMessage 1 false (minted (sampleAddress 1).dappId).encode
    ((sampleAddress 2).dappId.val ++ toLe (5 : U64))

/-- The ledger after the transfer. -/
def sampleLedger : Ledger :=
  ⟨initialSupply, [((sampleAddress 1).dappId, 999995), ((sampleAddress 2).dappId, 5)]⟩

section

variable [Target]

/-- A run of the token: the transfer. -/
theorem sampleRun : fungibleToken.Runs sampleStart
    [⟨sampleTransfer, fungibleToken.processMessage sampleTransfer⟩] sampleLedger.encode := by
  have hkey : (sampleAddress 1).dappId ≠ zeros 32 := by decide
  have hdestination : ¬ isZeroAddress (sampleAddress 9) := by decide
  have hsendable (deploys : Bool) (body : Bytes) (hbody : body.length < 2 ^ 31) (state : Bytes)
      (hstate : state.length < 2 ^ 32) : (sampleMessage 1 deploys state body).WellFormed :=
    signedInput_wellFormed ⟨hkey, hdestination, CurrencyAmounts.wellFormed_ofEntries_nil, hbody⟩
      CurrencyAmounts.wellFormed_ofEntries_nil hstate
  have hvalid := valid_minted (sampleAddress 1).dappId
  obtain ⟨e, he⟩ := exists_transferred (minted (sampleAddress 1).dappId) mintSource
    (sampleAddress 1).dappId initialSupply
  have hminted : initialToken sampleStart = transferred (minted (sampleAddress 1).dappId) mintSource
      (sampleAddress 1).dappId initialSupply := rfl
  have hinit : fungibleToken.init sampleStart =
      announced (minted (sampleAddress 1).dappId).encode e := by
    unfold fungibleToken
    dsimp only
    rw [hminted, he, orFailure_ok]
  have hstart := starts_of_announced (hsendable true [] (Nat.two_pow_pos 31) []
    (Nat.two_pow_pos 32)) hinit
  have htransfer : IsTransfer sampleTransfer (sampleAddress 1).dappId (sampleAddress 2).dappId 5 :=
    ⟨rfl, rfl, rfl, by decide⟩
  have hledger : (minted (sampleAddress 1).dappId).transfer (sampleAddress 1).dappId
      (sampleAddress 2).dappId 5 = .ok sampleLedger := by rfl
  obtain ⟨e', he'⟩ := exists_transferred sampleLedger (sampleAddress 1).dappId
    (sampleAddress 2).dappId 5
  have hprocess : process sampleTransfer = .ok (announced sampleLedger.encode e') :=
    (process_ok_iff hvalid (state_signedInput _ _ _ _)).mpr ⟨_, _, _, _, htransfer, hledger, he'⟩
  have hout : fungibleToken.processMessage sampleTransfer = announced sampleLedger.encode e' := by
    unfold fungibleToken
    dsimp only
    rw [hprocess, orFailure_ok]
  have hbody : ((sampleAddress 2).dappId.val ++ toLe (5 : U64)).length < 2 ^ 31 := by
    rw [List.length_append, length_toLe, length_bytesN]
    decide
  have hstate : (minted (sampleAddress 1).dappId).encode.length < 2 ^ 32 := by
    rw [hvalid.length_encode]
    decide
  have hbefore : sampleTransfer.state = (minted (sampleAddress 1).dappId).encode :=
    state_signedInput _ _ _ _
  exact runs_of_answer hstart (hsendable false _ hbody _ hstate) hbefore (o := none) hout

end

/-- A token after one transfer. -/
theorem token_safe_sample :
    letI := Target.wasm32
    ∃ s, Ledger.decode sampleLedger.encode = some s ∧ Safe sampleLedger.encode s := by
  let _ := Target.wasm32
  exact token_safe sampleRun

end AvmSdk.Token
