import AvmSdk.Contracts.Factory.Accounts
import AvmSdk.Sdk.Input.Signed

/-!
# Where the children of a factory come from

A factory spawns children and takes their reports, and knows them by their addresses alone.

* `Build.FactoryAt`, `Spawns`, `Reports`, `Delivered`: the accounts and the messages.
* `Build.Traces`: what the addresses are good for. Spawned children are deployed, and their reports are
  taken; no other account is taken for a child; and a child belongs to one factory, unless two
  preimages collide.
* `provenance_closed`: the strict build has this with every hash function.
-/

namespace AvmSdk.Factory

open Wire Sdk Contracts

/-- The address of a child. -/
def Build.childAddress (build : Build) (package : Bytes32) (factory : AccountAddress)
    (salt : BytesN saltBytes) : AccountAddress :=
  ⟨factory.dappId, build.childAccountId package.val factory salt.val⟩

/-- A message asks a factory for a child with a salt. -/
structure Spawns (x : MessageInput) (b : Bytes) (salt : BytesN saltBytes) : Prop where
  state_eq : x.state = b
  method_eq : x.message.methodId = Ids.spawn
  caller : ∃ key, x.caller = .external key
  body_eq : x.message.body = salt.val

/-- A message of an account reports a salt to a factory. -/
structure Reports (w : MessageInput) (b : Bytes) (factory sender : AccountAddress)
    (salt : BytesN saltBytes) : Prop where
  state_eq : w.state = b
  destination_eq : w.destination = factory
  method_eq : w.message.methodId = Ids.accept
  caller : w.caller = .internal sender
  body_eq : w.message.body = salt.val

section

variable [Target]

/-- A message that was emitted is delivered. -/
structure Delivered (source : AccountAddress) (o : OutboundIntent) (y : MessageInput) : Prop where
  wellFormed : y.WellFormed
  message_eq : ∃ m, y.message = .internal m ∧ m.source = source ∧ m.destination = o.destination ∧
    m.methodId = o.methodId ∧ m.body = o.body

variable {build : Build} {package : Bytes32} {b : Bytes} {x y w : MessageInput}
  {factory sender source : AccountAddress} {salt : BytesN saltBytes} {o : OutboundIntent}

/-- A delivery is called by the account that sent it, -/
theorem Delivered.caller_eq (h : Delivered source o y) : y.caller = .internal source := by
  obtain ⟨m, hm, rfl, -⟩ := h.message_eq
  rw [h.wellFormed.caller_eq, hm]
  rfl

/-- at the account that it was sent to, -/
theorem Delivered.destination_eq (h : Delivered source o y) : y.destination = o.destination := by
  obtain ⟨m, hm, -, hdestination, -⟩ := h.message_eq
  rw [← h.wellFormed.destination_eq, hm]
  exact hdestination

/-- with the body -/
theorem Delivered.body_eq (h : Delivered source o y) : y.message.body = o.body := by
  obtain ⟨m, hm, -, -, -, hbody⟩ := h.message_eq
  rw [hm]
  exact hbody

/-- and the method that it was sent with. -/
theorem Delivered.methodId_eq (h : Delivered source o y) : y.message.methodId = o.methodId := by
  obtain ⟨m, hm, -, -, hmethod, -⟩ := h.message_eq
  rw [hm]
  exact hmethod

/-! ## Messages -/

/-- The message that spawns a child. -/
def Build.spawned (build : Build) (x : MessageInput) (salt : BytesN saltBytes) : OutboundIntent :=
  outbound (build.childDeploy x x.destination salt).1 (deployMethodId x)
    (build.childDeploy x x.destination salt).2

/-- A factory spawns a child, whoever asks from outside. -/
theorem processMessage_spawn (h : FactoryState package b) (hspawns : Spawns x b salt) :
    (build.provenance.processMessage x).statusCode = 0 ∧
      (build.provenance.processMessage x).outboundIntents = [build.spawned x salt] ∧
        (build.spawned x salt).destination = build.childAddress package x.destination salt := by
  obtain ⟨rfl, hmethod, ⟨key, hcaller⟩, hbody⟩ := hspawns
  have hrole := getD_of_role h.length_eq h.role_eq
  have hsalt : tryIntoArray saltBytes x.message.body = some salt := tryIntoArray_eq_some.mpr hbody
  have hother : Ids.spawn ≠ Ids.ping := by decide
  have hresult : build.process x = build.spawn x := by
    simp only [Build.process, failIf, h.length_eq, hmethod, hrole, hother, ne_eq, not_true,
      if_false, if_true, and_self, ok_bind]
  have hout : ∃ out, build.spawn x = .ok out ∧ out.statusCode = 0 ∧
      out.outboundIntents = [build.spawned x salt] := by
    simp only [Build.spawn, hcaller, hsalt, okOr, ok_bind]
    exact ⟨_, rfl, rfl, rfl⟩
  obtain ⟨out, hok, hstatus, hintents⟩ := hout
  show (orFailure (build.process x)).statusCode = 0 ∧
    (orFailure (build.process x)).outboundIntents = _ ∧ _
  rw [hresult, hok]
  refine ⟨hstatus, hintents, ?_⟩
  show (build.childDeploy x x.destination salt).1 = _
  unfold Build.childDeploy Build.childAddress
  rw [h.package_eq]

/-- **A factory takes a report** if its sender has the address of a child. -/
theorem processMessage_accept_iff (h : FactoryState package b)
    (hreports : Reports w b factory sender salt) :
    (build.provenance.processMessage w).statusCode = 0 ↔
      sender = build.childAddress package factory salt := by
  obtain ⟨rfl, rfl, hmethod, hcaller, hbody⟩ := hreports
  have hrole := getD_of_role h.length_eq h.role_eq
  have hsalt : tryIntoArray saltBytes w.message.body = some salt := tryIntoArray_eq_some.mpr hbody
  have hping : Ids.accept ≠ Ids.ping := by decide
  have hspawn : Ids.accept ≠ Ids.spawn := by decide
  have hcode : notAChild ≠ 0 := by decide
  have hresult : build.process w = build.accept w := by
    simp only [Build.process, failIf, h.length_eq, hmethod, hrole, hping, hspawn, ne_eq, not_true,
      if_false, if_true, and_self, false_and, ok_bind]
  have haddress : sender = build.childAddress package w.destination salt ↔
      ¬ (sender.dappId ≠ w.destination.dappId ∨
        sender.accountId ≠ build.childAccountId ((template w.state).take 32) w.destination
          salt.val) := by
    rw [← h.package_eq]
    push Not
    constructor
    · rintro rfl
      exact ⟨rfl, rfl⟩
    · rintro ⟨hdapp, haccount⟩
      unfold Build.childAddress
      rw [← hdapp, ← haccount]
  show (orFailure (build.process w)).statusCode = 0 ↔ _
  rw [hresult, haddress]
  simp only [Build.accept, hcaller, hsalt, okOr, ok_bind]
  by_cases hguard : sender.dappId ≠ w.destination.dappId ∨
      sender.accountId ≠ build.childAccountId ((template w.state).take 32) w.destination salt.val
  · rw [failIf, if_pos hguard]
    exact iff_of_false hcode fun hno => hno hguard
  · rw [failIf, if_neg hguard]
    exact iff_of_true rfl hguard

/-- A child reports its salt to its factory. -/
theorem processMessage_report (h : ChildState factory salt x.state)
    (hmethod : x.message.methodId = Ids.report) :
    (build.provenance.processMessage x).statusCode = 0 ∧
      (build.provenance.processMessage x).outboundIntents =
        [outbound factory Ids.accept salt.val] := by
  have hrole := getD_of_role h.length_eq h.role_eq
  have hping : Ids.report ≠ Ids.ping := by decide
  have hspawn : Ids.report ≠ Ids.spawn := by decide
  have haccept : Ids.report ≠ Ids.accept := by decide
  have hresult : build.process x = Build.report x := by
    simp only [Build.process, failIf, h.length_eq, hmethod, hrole, hping, hspawn, haccept, ne_eq,
      not_true, if_false, if_true, and_self, false_and, ok_bind]
  have hout : ∃ out, Build.report x = .ok out ∧ out.statusCode = 0 ∧
      out.outboundIntents = [outbound factory Ids.accept salt.val] := by
    simp only [Build.report, h.factory_eq, addressFrom_addressBytes, okOr, ok_bind, h.salt_eq]
    exact ⟨_, rfl, rfl, rfl⟩
  obtain ⟨out, hok, hstatus, hintents⟩ := hout
  show (orFailure (build.process x)).statusCode = 0 ∧
    (orFailure (build.process x)).outboundIntents = _
  rw [hresult, hok]
  exact ⟨hstatus, hintents⟩

/-! ## Provenance -/

/-- **A factory** after its deployment, with the package of its envelope, and any messages. -/
def Build.FactoryAt (build : Build) (start : MessageInput) (package : Bytes32) (b : Bytes) : Prop :=
  ∃ calls d, build.provenance.Runs start calls b ∧ start.deploy = .ok d ∧ d.packageId = package ∧
    d.initData.getD 0 0 = roleFactory

/-- A factory that has been reached holds the state of its package. -/
theorem Build.FactoryAt.state {start : MessageInput} (h : build.FactoryAt start package b) :
    FactoryState package b := by
  obtain ⟨calls, d, hrun, hdeploy, rfl, hrole⟩ := h
  exact factory_of_runs hrun hdeploy hrole

/-- What is read from a deployment that was delivered: the package and the account of the factory, the
salt, and the constructor data of a child. -/
def childInput (package : Bytes32) (factory : AccountAddress) (salt : BytesN saltBytes) :
    DeployInput :=
  ⟨package, factory.accountId, [], salt.val, childInit factory⟩

/-- **What the addresses of the children are good for.** -/
structure Build.Traces (build : Build) : Prop where
  /-- A child that is spawned is deployed, and its reports are taken. -/
  complete : ∀ {start : MessageInput} {package : Bytes32} {b : Bytes} {x : MessageInput}
    {salt : BytesN saltBytes}, build.FactoryAt start package b → Spawns x b salt →
    (build.provenance.processMessage x).statusCode = 0 ∧
    ∃ o, (build.provenance.processMessage x).outboundIntents = [o] ∧
      ∀ y, Delivered x.destination o y → y.message.isDeploy →
        y.deploy = .ok (childInput package x.destination salt) ∧
        (build.provenance.init y).statusCode = 0 ∧
        ∀ calls c z, build.provenance.Runs y calls c → z.state = c →
          z.message.methodId = Ids.report →
          (build.provenance.processMessage z).statusCode = 0 ∧
          (build.provenance.processMessage z).outboundIntents =
            [outbound x.destination Ids.accept salt.val] ∧
          ∀ b' w, build.FactoryAt start package b' → w.state = b' →
            Delivered y.destination (outbound x.destination Ids.accept salt.val) w →
            (build.provenance.processMessage w).statusCode = 0
  /-- A factory takes a report from the child with the salt, and from no other account. -/
  sound : ∀ {start : MessageInput} {package : Bytes32} {b b' : Bytes} {x w : MessageInput}
    {sender : AccountAddress} {salt : BytesN saltBytes}, build.FactoryAt start package b →
    build.FactoryAt start package b' → Spawns x b salt →
    Reports w b' x.destination sender salt →
    ((build.provenance.processMessage w).statusCode = 0 ↔
      ∃ o, (build.provenance.processMessage x).outboundIntents = [o] ∧ o.destination = sender)
  /-- A child is deployed by the account that its constructor data names. -/
  deployer : ∀ {y : MessageInput} {deployer : AccountAddress} {d : DeployInput},
    y.caller = .internal deployer → y.deploy = .ok d → d.initData.getD 0 0 = roleChild →
    (build.provenance.init y).statusCode = 0 → d.initData = childInit deployer
  /-- An account whose reports two factories take belongs to one of them, with one salt, unless two
  preimages collide. -/
  unique : ∀ {start start' : MessageInput} {package package' : Bytes32} {b b' : Bytes}
    {w w' : MessageInput} {factory factory' sender : AccountAddress}
    {salt salt' : BytesN saltBytes}, build.FactoryAt start package b →
    build.FactoryAt start' package' b' → Reports w b factory sender salt →
    Reports w' b' factory' sender salt' →
    (build.provenance.processMessage w).statusCode = 0 →
    (build.provenance.processMessage w').statusCode = 0 →
    (package = package' ∧ factory = factory' ∧ salt = salt') ∨
      (build.preimage package.val factory salt.val ≠
          build.preimage package'.val factory' salt'.val ∧
        build.hash (build.preimage package.val factory salt.val) =
          build.hash (build.preimage package'.val factory' salt'.val))

/-- **The envelope of a child** is read as it was meant, and deploys the child. -/
theorem init_delivered (h : FactoryState package b) (hspawns : Spawns x b salt)
    (hdelivered : Delivered x.destination (build.spawned x salt) y) (hdeploy : y.message.isDeploy) :
    y.deploy = .ok (childInput package x.destination salt) ∧
      (build.provenance.init y).statusCode = 0 := by
  have hlen : x.state.length = stateBytes := by
    rw [hspawns.state_eq]
    exact h.length_eq
  have hpackage : package.val = (template x.state).take 32 := by
    rw [hspawns.state_eq]
    exact h.package_eq
  have hbody : y.message.body = (build.childDeploy x x.destination salt).2 := hdelivered.body_eq
  have hread : y.deploy = .ok (childInput package x.destination salt) := by
    simp only [MessageInput.deploy, bind_ok_iff, failIf_ok_iff, exists_const, not_not]
    refine ⟨hdeploy, ?_⟩
    rw [hbody]
    exact Build.deployEnvelope_childDeploy hlen hpackage
  have hfields : getRange y.message.body 40 136 = some (template x.state) := by
    rw [hbody]
    exact Build.getRange_childDeploy hlen
  have hstarts : ∃ out, build.initAccount y = .ok out ∧ out.statusCode = 0 :=
    initAccount_of_factory hread hfields rfl rfl hdelivered.caller_eq
  obtain ⟨out, hok, hstatus⟩ := hstarts
  refine ⟨hread, ?_⟩
  show (orFailure (build.initAccount y)).statusCode = 0
  rw [hok]
  exact hstatus

omit [Target] in
/-- Two children with one address. -/
theorem childAddress_eq {package' : Bytes32} {factory' : AccountAddress} {salt' : BytesN saltBytes}
    (h : build.childAddress package factory salt = build.childAddress package' factory' salt') :
    (package = package' ∧ factory = factory' ∧ salt = salt') ∨
      (build.preimage package.val factory salt.val ≠
          build.preimage package'.val factory' salt'.val ∧
        build.hash (build.preimage package.val factory salt.val) =
          build.hash (build.preimage package'.val factory' salt'.val)) := by
  obtain ⟨hdapp, haccount⟩ := AccountAddress.mk.inj h
  by_cases hsame : build.preimage package.val factory salt.val =
      build.preimage package'.val factory' salt'.val
  · obtain ⟨hpackage, howner, hsalt⟩ := Build.preimage_inj hsame
    have hfactory : factory = factory' := by
      obtain ⟨dapp, account⟩ := factory
      obtain ⟨dapp', account'⟩ := factory'
      rw [AccountAddress.mk.injEq]
      exact ⟨hdapp, howner⟩
    exact .inl ⟨hpackage, hfactory, hsalt⟩
  · exact .inr ⟨hsame, haccount⟩

/-- The report of a child that was delivered. -/
theorem Delivered.reports (h : Delivered sender (outbound factory Ids.accept salt.val) w)
    (hstate : w.state = b) : Reports w b factory sender salt :=
  ⟨hstate, h.destination_eq, h.methodId_eq, h.caller_eq, h.body_eq⟩

/-- **The strict build traces its children**, with every hash function. -/
theorem provenance_closed (hash : Bytes → Bytes32) : (Build.strict hash).Traces where
  complete hfactory hspawns := by
    obtain ⟨hstatus, hintents, haddress⟩ := processMessage_spawn hfactory.state hspawns
    refine ⟨hstatus, _, hintents, fun y hdelivered hdeploy => ?_⟩
    obtain ⟨hread, hstarts⟩ := init_delivered hfactory.state hspawns hdelivered hdeploy
    refine ⟨hread, hstarts, fun calls c z hrun hz hmethod => ?_⟩
    have hchild := child_of_runs rfl hrun hread rfl rfl
    rw [← hz] at hchild
    obtain ⟨hreported, hreport⟩ := processMessage_report hchild hmethod
    refine ⟨hreported, hreport, fun b' w hfactory' hw hreports => ?_⟩
    refine (processMessage_accept_iff hfactory'.state (hreports.reports hw)).mpr ?_
    exact hdelivered.destination_eq.trans haddress
  sound hfactory hfactory' hspawns hreports := by
    obtain ⟨-, hintents, haddress⟩ := processMessage_spawn hfactory.state hspawns
    rw [processMessage_accept_iff hfactory'.state hreports, hintents]
    constructor
    · intro hsender
      exact ⟨_, rfl, haddress.trans hsender.symm⟩
    · rintro ⟨o, ho, rfl⟩
      rw [← List.head_eq_of_cons_eq ho]
      exact haddress
  deployer hcaller hdeploy hrole hstatus := by
    obtain ⟨out, hok⟩ := exists_ok_of_statusCode (raises_ne_zero raises_initAccount) hstatus
    obtain ⟨deployer', salt, hcaller', hinit, -⟩ := initAccount_child rfl hdeploy hrole hok
    rw [hcaller, Caller.internal.injEq] at hcaller'
    rw [hinit, hcaller']
  unique hfactory hfactory' hreports hreports' hstatus hstatus' := by
    have hsender := (processMessage_accept_iff hfactory.state hreports).mp hstatus
    have hsender' := (processMessage_accept_iff hfactory'.state hreports').mp hstatus'
    exact childAddress_eq (hsender.symm.trans hsender')

end

/-! ## One child -/

section

local instance : Target := Target.wasm32

/-- The package as it is built. -/
def sampleBuild : Build := Build.strict blake3

/-- An account of one application. -/
def sampleAccount (byte : U8) : AccountAddress :=
  ⟨(sampleAddress 1).dappId, (sampleAddress byte).dappId⟩

/-- A message from outside to an account with a state. -/
def sampleOrder (state : Bytes) (destination : AccountAddress) (deploys : Bool) (methodId : U64)
    (body : Bytes) : MessageInput :=
  signedInput ⟨0, 0, 0, zeros 32⟩ (.ofEntries []) state
    { pubkey := (sampleAccount 31).accountId
      destination := destination
      deploys := deploys
      methodId := methodId
      extra := .ofEntries []
      body := body }

/-- The delivery of an emitted message. -/
def sampleDelivery (state : Bytes) (flags : U8) (source : AccountAddress) (o : OutboundIntent) :
    MessageInput :=
  internalInput ⟨0, 0, 0, zeros 32⟩ (.ofEntries []) state (InternalMessage.sent
    { flags := flags
      methodId := o.methodId
      fuelFeeShells := o.fuelFeeShells
      createdLt := 1
      createdAt := 0
      source := source
      destination := o.destination
      callback := none
      callbackHandlerMethodId := none
      eventReads := none
      extra := .ofEntries []
      body := o.body
      canonicalBytes := [] })

/-- The deployment of a factory. -/
def sampleStart : MessageInput :=
  sampleOrder [] (sampleAccount 2) true 9 (deployBody (roleFactory :: (zeros 64).val))

/-- The state of the factory. -/
def sampleFactory : Bytes := (sampleBuild.provenance.init sampleStart).nextState sampleStart.state

/-- The salt of a child. -/
def sampleSalt : BytesN saltBytes := zeros saltBytes

/-- The order to spawn it. -/
def sampleSpawn : MessageInput :=
  sampleOrder sampleFactory (sampleAccount 2) false Ids.spawn sampleSalt.val

/-- The deployment of the child. -/
def sampleChildStart : MessageInput :=
  sampleDelivery [] internalFlagDeploy (sampleAccount 2) (sampleBuild.spawned sampleSpawn sampleSalt)

/-- The state of the child. -/
def sampleChild : Bytes :=
  (sampleBuild.provenance.init sampleChildStart).nextState sampleChildStart.state

/-- The report of the child. -/
def sampleReport : MessageInput :=
  sampleDelivery sampleFactory 0 sampleChildStart.destination
    (outbound (sampleAccount 2) Ids.accept sampleSalt.val)

/-- The report of a child is taken. -/
theorem provenance_closed_sample : letI := Target.wasm32
    sampleBuild.FactoryAt sampleStart (zeros 32) sampleFactory ∧
      Spawns sampleSpawn sampleFactory sampleSalt ∧
      sampleBuild.provenance.Runs sampleChildStart [] sampleChild ∧
      (sampleBuild.provenance.processMessage sampleReport).statusCode = 0 := by
  have hfactory : sampleBuild.FactoryAt sampleStart (zeros 32) sampleFactory := by
    have hstate : sampleFactory =
        (sampleBuild.provenance.init sampleStart).nextState sampleStart.state := by
      unfold sampleFactory
      rfl
    refine ⟨[], ⟨zeros 32, zeros 32, [], [], roleFactory :: (zeros 64).val⟩,
      .start ⟨?_, ?_, hstate⟩, ?_, rfl, rfl⟩
    · exact (exists_frame (by decide +kernel) (by decide +kernel)).1
    · decide +kernel
    · exact deploy_signedInput rfl rfl (by decide)
  have hspawns : Spawns sampleSpawn sampleFactory sampleSalt :=
    ⟨state_signedInput _ _ _ _, rfl, ⟨_, rfl⟩, rfl⟩
  have hdelivered : Delivered sampleSpawn.destination
      (sampleBuild.spawned sampleSpawn sampleSalt) sampleChildStart := by
    refine ⟨(exists_frame ?_ ?_).1, _, rfl, rfl, rfl, rfl, rfl⟩
    · decide +kernel
    · decide +kernel
  have hreports : Delivered sampleChildStart.destination
      (outbound (sampleAccount 2) Ids.accept sampleSalt.val) sampleReport := by
    refine ⟨(exists_frame ?_ ?_).1, _, rfl, rfl, rfl, rfl, rfl⟩
    · decide +kernel
    · decide +kernel
  obtain ⟨-, o, ho, hcomplete⟩ := (provenance_closed blake3).complete hfactory hspawns
  have hspawned : (sampleBuild.provenance.processMessage sampleSpawn).outboundIntents =
      [sampleBuild.spawned sampleSpawn sampleSalt] :=
    (processMessage_spawn hfactory.state hspawns).2.1
  have hintents : [sampleBuild.spawned sampleSpawn sampleSalt] = [o] := hspawned.symm.trans ho
  obtain rfl := List.head_eq_of_cons_eq hintents
  obtain ⟨-, hstarts, hlives⟩ := hcomplete sampleChildStart hdelivered (by decide)
  have hchild : sampleBuild.provenance.Runs sampleChildStart [] sampleChild := by
    refine .start ⟨hdelivered.wellFormed, hstarts, ?_⟩
    unfold sampleChild
    rfl
  obtain ⟨-, -, htaken⟩ := hlives [] sampleChild
    (sampleOrder sampleChild sampleChildStart.destination false Ids.report []) hchild
    (state_signedInput _ _ _ _) rfl
  exact ⟨hfactory, hspawns, hchild,
    htaken sampleFactory sampleReport hfactory (state_internalInput _ _ _ _) hreports⟩

end

end AvmSdk.Factory
