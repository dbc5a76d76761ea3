import AvmSdk.Contracts.Factory.Envelope
import AvmSdk.Sdk.Account

/-!
# The accounts of the package

What the state of a factory and of a child keeps from its deployment on.

* `FactoryState`, `ChildState`: the fields that are kept. `factory_of_runs`, `child_of_runs`.
* `initAccount_child`: when a child can be deployed.
-/

namespace AvmSdk.Factory

open Wire Sdk Contracts

/-- **A factory** keeps its role and its package. -/
structure FactoryState (package : Bytes32) (b : Bytes) : Prop where
  length_eq : b.length = stateBytes
  role_eq : b.extract 0 1 = [roleFactory]
  package_eq : package.val = (template b).take 32

/-- **A child** keeps its role, its factory and its salt. -/
structure ChildState (factory : AccountAddress) (salt : BytesN saltBytes) (b : Bytes) : Prop where
  length_eq : b.length = stateBytes
  role_eq : b.extract 0 1 = [roleChild]
  factory_eq : b.extract 112 176 = addressBytes factory
  salt_eq : b.extract 240 248 = salt.val

section

variable {build : Build} {package : Bytes32} {b : Bytes} {x : MessageInput} {out : MessageOutput}
  {factory : AccountAddress} {salt : BytesN saltBytes} {role : U8} {fields : Bytes}

/-- The role in a state. -/
theorem getD_of_role (hlen : b.length = stateBytes) (hrole : b.extract 0 1 = [role]) :
    b.getD 0 0 = role := by
  have hone : b.extract 0 (0 + 1) = [b.getD 0 0] := extract_one (by rw [hlen]; decide)
  rw [hone, List.cons.injEq] at hrole
  exact hrole.1

/-- A patch behind the fields of the package leaves a factory. -/
theorem FactoryState.patched (h : FactoryState package b) {o : ℕ} {u : Bytes} (ho : 112 ≤ o)
    (hfits : o + u.length ≤ stateBytes) : FactoryState package (patch b o u) := by
  have hsame : SameOutside o (o + u.length) b (patch b o u) :=
    sameOutside_patch (by rw [h.length_eq]; exact hfits)
  have htemplate : template (patch b o u) = template b := hsame.extract_eq (.inl ho)
  refine ⟨hsame.length_eq.trans h.length_eq, ?_, ?_⟩
  · exact (hsame.extract_eq (.inl (by omega))).trans h.role_eq
  · rw [htemplate]
    exact h.package_eq

/-! ## Messages -/

/-- What an accepted message was. -/
inductive Processed (build : Build) (x : MessageInput) (out : MessageOutput) : Prop
  /-- Nothing was asked. -/
  | ping (out_eq : out = unchanged x) : Processed build x out
  /-- A child was deployed. -/
  | spawn (role : x.state.getD 0 0 = roleFactory) (hok : build.spawn x = .ok out) :
      Processed build x out
  /-- A report was taken. -/
  | accept (role : x.state.getD 0 0 = roleFactory) (hok : build.accept x = .ok out) :
      Processed build x out
  /-- A report was sent. -/
  | report (role : x.state.getD 0 0 = roleChild) (hok : Build.report x = .ok out) :
      Processed build x out
  /-- A message was relayed. -/
  | send (role : x.state.getD 0 0 = roleRelay) (hok : Build.relaySend x = .ok out) :
      Processed build x out
  /-- A deployment was forged. -/
  | forge (role : x.state.getD 0 0 = roleRelay) (hok : build.relayForge x = .ok out) :
      Processed build x out

/-- A call that succeeds is one of the cases. -/
theorem processed_of_process (hok : build.process x = .ok out) : Processed build x out := by
  simp only [Build.process, bind_ok_iff] at hok
  obtain ⟨-, -, hok⟩ := hok
  split_ifs at hok with hping hspawn haccept hreport hsend hforge
  · exact .ping (pure_ok_iff.mp hok).symm
  · exact .spawn hspawn.2 hok
  · exact .accept haccept.2 hok
  · exact .report hreport.2 hok
  · exact .send hsend.2 hok
  · exact .forge hforge.2 hok

/-- The errors of a message. -/
theorem raises_process : Raises (build.process x) ErrorCode := by
  have hspawn : Raises (build.spawn x) ErrorCode := by
    unfold Build.spawn
    split
    next => exact raises_error (errorCode rfl)
    next => exact (raises_okOr fun _ => errorCode rfl).bind fun _ _ => raises_pure _
  have haccept : Raises (build.accept x) ErrorCode := by
    unfold Build.accept
    split
    next => exact raises_error (errorCode rfl)
    next =>
      refine (raises_okOr fun _ => errorCode rfl).bind fun _ _ => ?_
      exact (raises_failIf fun _ => errorCode rfl).bind fun _ _ => raises_pure _
  have hreport : Raises (Build.report x) ErrorCode := by
    unfold Build.report
    exact (raises_okOr fun _ => errorCode rfl).bind fun _ _ => raises_pure _
  have hsend : Raises (Build.relaySend x) ErrorCode := by
    unfold Build.relaySend
    refine (raises_okOr fun _ => errorCode rfl).bind fun _ _ => ?_
    refine (raises_okOr fun _ => errorCode rfl).bind fun _ _ => ?_
    refine (raises_okOr fun _ => errorCode rfl).bind fun _ _ => ?_
    exact (raises_okOr fun _ => errorCode rfl).bind fun _ _ => raises_pure _
  have hforge : Raises (build.relayForge x) ErrorCode := by
    unfold Build.relayForge
    refine (raises_okOr fun _ => errorCode rfl).bind fun _ _ => ?_
    exact (raises_okOr fun _ => errorCode rfl).bind fun _ _ => raises_pure _
  unfold Build.process
  refine (raises_failIf fun _ => errorCode rfl).bind fun _ _ => ?_
  refine Raises.ite (fun _ => raises_pure _) fun _ => ?_
  refine Raises.ite (fun _ => hspawn) fun _ => Raises.ite (fun _ => haccept) fun _ => ?_
  refine Raises.ite (fun _ => hreport) fun _ => Raises.ite (fun _ => hsend) fun _ => ?_
  refine Raises.ite (fun _ => hforge) fun _ => Raises.ite (fun _ => ?_) fun _ => ?_
  · exact raises_error (errorCode rfl)
  · exact raises_error (errorCode rfl)

/-- **A message** leaves a factory a factory. -/
theorem FactoryState.process (h : FactoryState package x.state) (hok : build.process x = .ok out)
    (old : Bytes) : FactoryState package (out.nextState old) := by
  have hrole := getD_of_role h.length_eq h.role_eq
  cases processed_of_process hok with
  | ping out_eq =>
      rw [out_eq]
      exact h
  | spawn role hok =>
      unfold Build.spawn at hok
      split at hok
      next => cases hok
      next =>
        simp only [bind_ok_iff, pure_ok_iff] at hok
        obtain ⟨salt, -, rfl⟩ := hok
        exact h.patched (by decide) (by rw [length_addressBytes]; decide)
  | accept role hok =>
      unfold Build.accept at hok
      split at hok
      next => cases hok
      next =>
        simp only [bind_ok_iff, pure_ok_iff] at hok
        obtain ⟨salt, -, -, -, rfl⟩ := hok
        have hcounted := h.patched (o := 112)
          (u := toLe (ofLe 32 (x.state.extract 112 116) + 1)) le_rfl (by rw [length_toLe]; decide)
        exact hcounted.patched (by decide) (by rw [length_addressBytes]; decide)
  | report role hok => exact absurd (hrole.symm.trans role) (by decide)
  | send role hok => exact absurd (hrole.symm.trans role) (by decide)
  | forge role hok => exact absurd (hrole.symm.trans role) (by decide)

/-- **A message** leaves the state of a child. -/
theorem ChildState.process (h : ChildState factory salt x.state) (hok : build.process x = .ok out)
    (old : Bytes) : out.nextState old = x.state := by
  have hrole := getD_of_role h.length_eq h.role_eq
  cases processed_of_process hok with
  | ping out_eq =>
      rw [out_eq]
      rfl
  | spawn role hok => exact absurd (hrole.symm.trans role) (by decide)
  | accept role hok => exact absurd (hrole.symm.trans role) (by decide)
  | report role hok =>
      simp only [Build.report, bind_ok_iff, pure_ok_iff] at hok
      obtain ⟨factory, -, rfl⟩ := hok
      rfl
  | send role hok => exact absurd (hrole.symm.trans role) (by decide)
  | forge role hok => exact absurd (hrole.symm.trans role) (by decide)

/-! ## Deployments -/

/-- The errors of a deployment. -/
theorem raises_initAccount [Target] : Raises (build.initAccount x) ErrorCode := by
  have hchild (d : DeployInput) (state : Bytes) : Raises (build.initChild x d state) ErrorCode := by
    unfold Build.initChild
    split
    next => exact raises_error (errorCode rfl)
    next => exact (raises_failIf fun _ => errorCode rfl).bind fun _ _ => raises_pure _
  unfold Build.initAccount
  refine (raises_mapError fun _ => errorCode rfl).bind fun d _ => ?_
  refine (raises_okOr fun _ => errorCode rfl).bind fun _ _ => ?_
  refine (raises_failIf fun _ => errorCode rfl).bind fun _ _ => ?_
  refine Raises.ite (fun _ => raises_pure _) fun _ => Raises.ite (fun _ => hchild d _) fun _ => ?_
  exact raises_error (errorCode rfl)

/-- The package id that the SDK reads is the front of the fields that an account keeps. -/
theorem packageId_of_deploy [Target] {d : DeployInput} (hdeploy : x.deploy = .ok d)
    (hfields : getRange x.message.body 40 136 = some fields) :
    fields.length = 96 ∧ d.packageId.val = fields.take 32 := by
  obtain ⟨⟨-, hle⟩, rfl⟩ := getRange_eq_some.mp hfields
  simp only [MessageInput.deploy, deployEnvelope, bind_ok_iff, pure_ok_iff] at hdeploy
  obtain ⟨_, -, _, -, _, -, _, -, _, -, _, -, _, -, _, -, _, -, _, -, _, -, _, -, _, -, _, -, _, -,
    _, -, _, -, package, hpackage, _, -, rfl⟩ := hdeploy
  have hread := (readFixedAt_ok_iff.mp hpackage).2
  refine ⟨length_extract_of_le hle, ?_⟩
  rw [Build.take_extract (by decide), List.extract_eq_take_drop, ← hread]

/-- A fresh state. -/
theorem freshState_written (hfields : fields.length = 96) :
    Written (zeros stateBytes).val
      [(0, [role]), (1, [if build.permissiveChild then 1 else 0]), (8, toLe x.message.methodId),
        (16, fields)] (build.freshState x role fields) := by
  have hzeros : (zeros stateBytes).val.length = 256 := (zeros stateBytes).property
  have hmethod : (toLe x.message.methodId).length = 8 := length_toLe x.message.methodId
  apply written_patches
  · simp [hzeros, hfields]
  · simp [Apart]

/-- What the fresh state of an account holds. -/
theorem freshState_fields (hfields : fields.length = 96) :
    (build.freshState x role fields).length = stateBytes ∧
      (build.freshState x role fields).extract 0 1 = [role] ∧
        template (build.freshState x role fields) = fields := by
  have hwritten : Written _ _ (build.freshState x role fields) := freshState_written hfields
  have hrole := (hwritten.stands (0, [role]) (by simp)).2
  have htemplate := (hwritten.stands (16, fields) (by simp)).2
  rw [hfields] at htemplate
  exact ⟨hwritten.length_eq.trans (zeros stateBytes).property, hrole, htemplate⟩

/-- The state of a fresh child. -/
theorem childState_fields {deployer : AccountAddress} (hlen : b.length = stateBytes)
    (hrole : b.extract 0 1 = [roleChild]) :
    ChildState factory salt (Build.childState b (addressBytes factory) deployer salt.val) := by
  have hfactory := length_addressBytes factory
  have hdeployer := length_addressBytes deployer
  have hsalt : salt.val.length = 8 := salt.property
  have hwritten : Written b [(112, addressBytes factory), (176, addressBytes deployer),
      (240, salt.val)] (Build.childState b (addressBytes factory) deployer salt.val) := by
    apply written_patches
    · simp [hlen, hfactory, hdeployer, stateBytes, saltBytes]
    · simp [Apart, hfactory, hdeployer]
  have hfactoryAt := (hwritten.stands (112, addressBytes factory) (by simp)).2
  have hsaltAt := (hwritten.stands (240, salt.val) (by simp)).2
  rw [hfactory] at hfactoryAt
  rw [hsalt] at hsaltAt
  have hkept := hwritten.kept 0 [roleChild] ⟨by rw [hlen]; decide, hrole⟩ (by simp [Apart])
  exact ⟨hwritten.length_eq.trans hlen, hkept.2, hfactoryAt, hsaltAt⟩

section

variable [Target] {d : DeployInput}

/-- **A factory** is deployed with the package of its envelope. -/
theorem initAccount_factory (hok : build.initAccount x = .ok out) (hdeploy : x.deploy = .ok d)
    (hrole : d.initData.getD 0 0 = roleFactory) (old : Bytes) :
    FactoryState d.packageId (out.nextState old) := by
  have hnot : roleFactory ≠ roleChild := by decide
  simp only [Build.initAccount, hdeploy, Except.mapError, ok_bind, bind_ok_iff, okOr_ok_iff,
    hrole] at hok
  obtain ⟨fields, hfields, -, -, hok⟩ := hok
  obtain ⟨hlen, hpackage⟩ := packageId_of_deploy hdeploy hfields
  split_ifs at hok with hmatch hchild
  · rw [pure_ok_iff] at hok
    subst hok
    have hfresh : (build.freshState x roleFactory fields).length = stateBytes ∧
        (build.freshState x roleFactory fields).extract 0 1 = [roleFactory] ∧
          template (build.freshState x roleFactory fields) = fields := freshState_fields hlen
    obtain ⟨hlength, hrole, htemplate⟩ := hfresh
    refine ⟨hlength, hrole, ?_⟩
    show d.packageId.val = (template (build.freshState x roleFactory fields)).take 32
    rw [htemplate]
    exact hpackage
  · exact absurd hchild.1 hnot

/-- **When a child is deployed**: an account deploys it, which its constructor data names. -/
theorem initAccount_child (hstrict : build.permissiveChild = false) (hdeploy : x.deploy = .ok d)
    (hrole : d.initData.getD 0 0 = roleChild) (hok : build.initAccount x = .ok out) :
    ∃ (deployer : AccountAddress) (salt : BytesN saltBytes), x.caller = .internal deployer ∧
      d.initData = childInit deployer ∧ d.salt = salt.val ∧
        ∀ old, ChildState deployer salt (out.nextState old) := by
  have hfactory : ¬ (roleChild = roleFactory ∨ roleChild = roleRelay) := by decide
  simp only [Build.initAccount, hdeploy, Except.mapError, ok_bind, bind_ok_iff, okOr_ok_iff,
    failIf_ok_iff, hrole, hfactory, false_and, if_false, not_not, exists_const] at hok
  obtain ⟨fields, hfields, hlen, hok⟩ := hok
  split_ifs at hok with hchild
  unfold Build.initChild at hok
  split at hok
  next => cases hok
  next deployer hcaller =>
    simp only [bind_ok_iff, failIf_ok_iff, hstrict, pure_ok_iff, exists_const] at hok
    obtain ⟨hguard, rfl⟩ := hok
    have hdeployer : addressBytes deployer = d.initData.drop 1 := by
      by_contra hno
      exact hguard ⟨Bool.false_ne_true, hno⟩
    have hinit : d.initData = childInit deployer := by
      unfold childInit
      rw [hdeployer]
      cases hdata : d.initData with
      | nil =>
          rw [hdata] at hlen
          cases hlen
      | cons role rest =>
          rw [hdata] at hrole
          rw [← hrole]
          rfl
    have hfresh : (build.freshState x roleChild fields).length = stateBytes ∧
        (build.freshState x roleChild fields).extract 0 1 = [roleChild] ∧
          template (build.freshState x roleChild fields) = fields :=
      freshState_fields (packageId_of_deploy hdeploy hfields).1
    let salt : BytesN saltBytes := ⟨d.salt, hchild.2⟩
    have hstate : ChildState deployer salt (Build.childState (build.freshState x roleChild fields)
        (addressBytes deployer) deployer salt.val) := childState_fields hfresh.1 hfresh.2.1
    refine ⟨deployer, salt, hcaller, hinit, rfl, fun old => ?_⟩
    rw [← hdeployer]
    exact hstate

/-- A child that is deployed by its factory starts. -/
theorem initAccount_of_factory (hdeploy : x.deploy = .ok d)
    (hfields : getRange x.message.body 40 136 = some fields) (hinit : d.initData = childInit factory)
    (hsalt : d.salt = salt.val) (hcaller : x.caller = .internal factory) :
    ∃ out, build.initAccount x = .ok out ∧ out.statusCode = 0 := by
  have hfactory : ¬ (roleChild = roleFactory ∨ roleChild = roleRelay) := by decide
  have hrole : (childInit factory).getD 0 0 = roleChild := rfl
  have hdrop : (childInit factory).drop 1 = addressBytes factory := rfl
  have hchild : roleChild = roleChild ∧ salt.val.length = saltBytes := ⟨rfl, salt.property⟩
  simp only [Build.initAccount, hdeploy, hinit, hsalt, hfields, Except.mapError, okOr, ok_bind,
    failIf, length_childInit, hrole, hdrop, hfactory, hchild, false_and, if_false, if_pos,
    not_true, ne_eq, Build.initChild, hcaller, and_false, and_true]
  exact ⟨_, rfl, rfl⟩

/-! ## Runs -/

variable {start : MessageInput} {calls : List Call}

/-- **A deployed factory** keeps the package of its envelope. -/
theorem factory_of_runs (hrun : build.provenance.Runs start calls b) (hdeploy : start.deploy = .ok d)
    (hrole : d.initData.getD 0 0 = roleFactory) : FactoryState d.packageId b := by
  refine hrun.invariant (I := fun _ b => FactoryState d.packageId b) (fun b hstarts => ?_)
    fun es b c b' _ hstate hcall => ?_
  · obtain ⟨-, hstatus, rfl⟩ := hstarts
    obtain ⟨out, hok⟩ := exists_ok_of_statusCode (raises_ne_zero raises_initAccount) hstatus
    show FactoryState d.packageId ((orFailure (build.initAccount start)).nextState start.state)
    rw [hok]
    exact initAccount_factory hok hdeploy hrole _
  · obtain ⟨-, rfl, hout, rfl⟩ := hcall
    rw [hout]
    show FactoryState d.packageId ((orFailure (build.process c.input)).nextState c.input.state)
    cases hok : build.process c.input with
    | error code => exact hstate
    | ok out => exact hstate.process hok _

/-- **A deployed child** keeps its factory and its salt. -/
theorem child_of_runs (hstrict : build.permissiveChild = false)
    (hrun : build.provenance.Runs start calls b) (hdeploy : start.deploy = .ok d)
    (hinit : d.initData = childInit factory) (hsalt : d.salt = salt.val) :
    ChildState factory salt b := by
  have hrole : d.initData.getD 0 0 = roleChild := by
    rw [hinit]
    rfl
  refine hrun.invariant (I := fun _ b => ChildState factory salt b) (fun b hstarts => ?_)
    fun es b c b' _ hstate hcall => ?_
  · obtain ⟨-, hstatus, rfl⟩ := hstarts
    obtain ⟨out, hok⟩ := exists_ok_of_statusCode (raises_ne_zero raises_initAccount) hstatus
    obtain ⟨deployer, salt', -, hinit', hsalt', hstate⟩ :=
      initAccount_child hstrict hdeploy hrole hok
    obtain rfl : factory = deployer :=
      addressBytes_injective (List.tail_eq_of_cons_eq (hinit.symm.trans hinit'))
    obtain rfl : salt = salt' := Subtype.ext (hsalt.symm.trans hsalt')
    show ChildState factory salt ((orFailure (build.initAccount start)).nextState start.state)
    rw [hok]
    exact hstate _
  · obtain ⟨-, rfl, hout, rfl⟩ := hcall
    rw [hout]
    show ChildState factory salt ((orFailure (build.process c.input)).nextState c.input.state)
    cases hok : build.process c.input with
    | error code => exact hstate
    | ok out =>
        show ChildState factory salt (out.nextState c.input.state)
        rw [hstate.process hok]
        exact hstate

end

end

end AvmSdk.Factory
