import AvmSdk.Contracts.Factory.Factory
import AvmSdk.Wire.Writes

/-!
# The envelope of a child

The package writes the envelope of a child and the state of an account at fixed offsets of its own,
and the SDK reads the envelope at others.

* `Build.deployEnvelope_childDeploy`: the SDK reads from the envelope what was meant.
* `Build.preimage_inj`: what is hashed to the id of a child tells the package, the factory and the salt.
-/

namespace AvmSdk.Factory

open Wire Sdk Contracts

/-- The length of an address. -/
theorem length_addressBytes (a : AccountAddress) : (addressBytes a).length = 64 := a.length_toBytes

/-- Distinct addresses have distinct bytes. -/
theorem addressBytes_injective {a a' : AccountAddress} (h : addressBytes a = addressBytes a') :
    a = a' :=
  AccountAddress.toBytes_injective h

/-- The length of the init body. -/
theorem length_childInit (factory : AccountAddress) : (childInit factory).length = initBytes :=
  congrArg Nat.succ (length_addressBytes factory)

/-- The address behind the role. -/
theorem addressFrom_addressBytes (a : AccountAddress) : addressFrom (addressBytes a) = some a := by
  have hfirst := getRange_append [] a.dappId.val a.accountId.val
  have hsecond := getRange_append a.dappId.val a.accountId.val []
  rw [List.nil_append, List.length_nil, Nat.zero_add, a.dappId.property] at hfirst
  rw [List.append_nil, a.dappId.property, a.accountId.property] at hsecond
  have htry (k : Bytes32) : tryIntoArray 32 k.val = some k := tryIntoArray_eq_some.mpr rfl
  unfold addressFrom addressBytes
  rw [hfirst, hsecond]
  simp only [Option.bind_some, htry]
  rfl

namespace Build

variable {build : Build} {input : MessageInput} {factory : AccountAddress} {salt : BytesN saltBytes}

/-- The writes of the header, in the order of the code. -/
def headerWrites (build : Build) (input : MessageInput) (factory : AccountAddress) :
    List (ℕ × Bytes) :=
  [(0, acdpMagic), (8, input.selectedCodeId.val), (40, template input.state),
    (136, factory.accountId.val), (168, (build.hash (childInit factory)).val),
    (266, toLe (BitVec.ofNat 16 saltBytes)), (268, toLe (BitVec.ofNat 32 initBytes))]

/-- The length of the template. -/
theorem length_template {state : Bytes} (h : state.length = stateBytes) :
    (template state).length = 96 := by
  unfold template
  rw [length_extract_of_le (by rw [h]; decide)]

/-- The front of a range is a range. -/
theorem take_extract {bs : Bytes} {p q n : ℕ} (h : n ≤ q - p) :
    (bs.extract p q).take n = bs.extract p (p + n) := by
  rw [List.extract_eq_take_drop, List.extract_eq_take_drop, List.take_take, Nat.min_eq_left h,
    Nat.add_sub_cancel_left]

/-- The header holds what was written, and zeros elsewhere. -/
theorem childHeader_written (h : input.state.length = stateBytes) :
    Written (zeros headerBytes).val (build.headerWrites input factory)
      (build.childHeader input factory) := by
  have hmagic : acdpMagic.length = 4 := rfl
  have hcode := input.selectedCodeId.property
  have htemplate := length_template h
  have howner := factory.accountId.property
  have hhash := (build.hash (childInit factory)).property
  have hsalt : (toLe (BitVec.ofNat 16 saltBytes)).length = 2 := rfl
  have hinit : (toLe (BitVec.ofNat 32 initBytes)).length = 4 := rfl
  have hzeros : (zeros headerBytes).val.length = 288 := (zeros headerBytes).property
  have hfits : ∀ w ∈ build.headerWrites input factory,
      w.1 + w.2.length ≤ (zeros headerBytes).val.length := by
    simp only [headerWrites, List.forall_mem_cons]
    simp [hmagic, hcode, htemplate, howner, hhash, hsalt, hinit, hzeros]
  have hapart : (build.headerWrites input factory).Pairwise Apart := by
    simp only [headerWrites, List.pairwise_cons, List.forall_mem_cons, Apart]
    simp [hmagic, hcode, htemplate, howner, hhash, hsalt]
  exact written_patches hfits hapart

/-- What the header does not hold is zero. -/
theorem extract_childHeader_zeros (h : input.state.length = stateBytes) {o n : ℕ}
    (hn : o + n ≤ headerBytes)
    (hfree : 4 ≤ o ∧ o + n ≤ 8 ∨ 200 ≤ o ∧ o + n ≤ 266 ∨ 272 ≤ o) :
    (build.childHeader input factory).extract o (o + n) = (zeros n).val := by
  have hcode := input.selectedCodeId.property
  have htemplate := length_template h
  have howner := factory.accountId.property
  have hhash := (build.hash (childInit factory)).property
  have hzeros : (zeros n).val.length = n := (zeros n).property
  have hapart : ∀ w ∈ build.headerWrites input factory, Apart (o, (zeros n).val) w := by
    have hmagic : acdpMagic.length = 4 := rfl
    have hsalt : (toLe (BitVec.ofNat 16 saltBytes)).length = 2 := rfl
    have hinit : (toLe (BitVec.ofNat 32 initBytes)).length = 4 := rfl
    simp only [headerWrites, List.forall_mem_cons, Apart, hmagic, hcode, htemplate, howner, hhash,
      hsalt, hinit, hzeros]
    refine ⟨?_, ?_, ?_, ?_, ?_, ?_, ?_, nofun⟩ <;> omega
  have hblank : StandsAt (zeros headerBytes).val o (zeros n).val := standsAt_replicate hn
  have hstands := ((childHeader_written h).kept o _ hblank hapart).2
  rwa [hzeros] at hstands

/-- What was written stands in the header. -/
theorem extract_childHeader (h : input.state.length = stateBytes) {o n : ℕ} {u : Bytes}
    (hn : u.length = n) (hmem : (o, u) ∈ build.headerWrites input factory) :
    (build.childHeader input factory).extract o (o + n) = u := by
  rw [← hn]
  exact ((childHeader_written h).stands _ hmem).2

/-- The length of the header. -/
theorem length_childHeader (h : input.state.length = stateBytes) :
    (build.childHeader input factory).length = headerBytes :=
  (childHeader_written h).length_eq.trans (zeros headerBytes).property

/-- The lengths that the header announces. -/
theorem ofHeader_childHeader (h : input.state.length = stateBytes) :
    EnvelopeLengths.ofHeader (build.childHeader input factory) =
      ⟨0, 0, BitVec.ofNat 16 saltBytes, BitVec.ofNat 32 initBytes, 0, 0, 0, 0⟩ := by
  have hzeros {o n : ℕ} (hn : o + n ≤ headerBytes)
      (hfree : 4 ≤ o ∧ o + n ≤ 8 ∨ 200 ≤ o ∧ o + n ≤ 266 ∨ 272 ≤ o) :
      (build.childHeader input factory).extract o (o + n) = (zeros n).val :=
    extract_childHeader_zeros h hn hfree
  have hsalt : (build.childHeader input factory).extract 266 (266 + 2) =
      toLe (BitVec.ofNat 16 saltBytes) := extract_childHeader h rfl (by simp [headerWrites])
  have hinit : (build.childHeader input factory).extract 268 (268 + 4) =
      toLe (BitVec.ofNat 32 initBytes) := extract_childHeader h rfl (by simp [headerWrites])
  have hword : ofLe 16 (zeros 2).val = 0 := by decide
  have hword' : ofLe 32 (zeros 4).val = 0 := by decide
  unfold EnvelopeLengths.ofHeader
  rw [hzeros (o := 4) (n := 2) (by decide) (by decide), hzeros (o := 264) (n := 2) (by decide)
    (by decide), hzeros (o := 272) (n := 4) (by decide) (by decide), hzeros (o := 276) (n := 4)
    (by decide) (by decide), hzeros (o := 280) (n := 4) (by decide) (by decide),
    hzeros (o := 284) (n := 2) (by decide) (by decide), hsalt, hinit, hword, hword',
    ofLe_toLe (by decide), ofLe_toLe (by decide)]

/-- The header of a child is that of a deploy envelope. -/
theorem envelopeHeader_childHeader (h : input.state.length = stateBytes) :
    EnvelopeHeader (build.childHeader input factory) := by
  have hkey : (build.childHeader input factory).extract 200 (200 + 32) = (zeros 32).val :=
    extract_childHeader_zeros h (by decide) (by decide)
  refine ⟨length_childHeader h, ?_, ?_, ?_, ?_, ?_, ?_, fun _ => ?_⟩
  · exact extract_childHeader (o := 0) (u := acdpMagic) h rfl (by simp [headerWrites])
  · rw [ofHeader_childHeader h]
    decide
  · exact extract_childHeader_zeros (n := 2) h (by decide) (by decide)
  · exact extract_childHeader_zeros (n := 2) h (by decide) (by decide)
  · rw [ofHeader_childHeader h]
    exact iff_of_false (fun hno => hno hkey) (by decide)
  · rw [ofHeader_childHeader h]
    decide
  · exact extract_childHeader_zeros (n := 32) h (by decide) (by decide)

/-- **The SDK reads the envelope of a child** as it was meant. -/
theorem deployEnvelope_childDeploy [Target] (h : input.state.length = stateBytes)
    {package : Bytes32} (hpackage : package.val = (template input.state).take 32) :
    deployEnvelope (build.childDeploy input factory salt).2 =
      .ok ⟨package, factory.accountId, [], salt.val, childInit factory⟩ := by
  have hsalt : salt.val.length = 8 := salt.property
  have hinit : (childInit factory).length = 65 := length_childInit factory
  have hlen : (build.childHeader input factory).length = 288 := length_childHeader h
  have hmax : (build.childDeploy input factory salt).2.length ≤ usizeMax := by
    have := Target.u32_le_usizeMax
    simp only [childDeploy, List.length_append, hlen, hsalt, hinit]
    omega
  refine (deployEnvelope_ok_iff hmax).mpr ⟨build.childHeader input factory,
    ⟨[], salt.val, childInit factory, [], [], [], [], []⟩, envelopeHeader_childHeader h, ?_, ?_,
    ?_, ?_, rfl, rfl, rfl⟩
  · rw [ofHeader_childHeader h]
    exact ⟨rfl, hsalt, hinit, rfl, rfl, rfl, rfl, rfl⟩
  · simp [childDeploy, Sections.toBytes]
  · have hfields : (build.childHeader input factory).extract 40 (40 + 96) = template input.state :=
      extract_childHeader h (length_template h) (by simp [headerWrites])
    rw [hpackage, ← hfields, take_extract (by decide)]
  · exact (extract_childHeader h factory.accountId.property (by simp [headerWrites])).symm

/-- The fields of the envelope that the child keeps are those that the factory keeps. -/
theorem getRange_childDeploy (h : input.state.length = stateBytes) :
    getRange (build.childDeploy input factory salt).2 40 136 = some (template input.state) := by
  have hlen : (build.childHeader input factory).length = 288 := length_childHeader h
  have hfields : (build.childHeader input factory).extract 40 (40 + 96) = template input.state :=
    extract_childHeader h (length_template h) (by simp [headerWrites])
  unfold childDeploy
  rw [getRange_eq_some, List.append_assoc, List.length_append, hlen]
  refine ⟨⟨by decide, by omega⟩, ?_⟩
  rw [← hfields, List.extract_eq_take_drop, List.extract_eq_take_drop,
    List.drop_append_of_le_length (by omega),
    List.take_append_of_le_length (by rw [List.length_drop, hlen]; decide)]

/-- **The preimage** of the id of a child tells its package, its factory and its salt. -/
theorem preimage_inj {package package' : Bytes32} {factory' : AccountAddress}
    {salt' : BytesN saltBytes}
    (h : build.preimage package.val factory salt.val =
      build.preimage package'.val factory' salt'.val) :
    package = package' ∧ factory.accountId = factory'.accountId ∧ salt = salt' := by
  have hlength (n : ℕ) (u v : BytesN n) : u.val.length = v.val.length :=
    u.property.trans v.property.symm
  have hword (x y : U16) : (toLe x).length = (toLe y).length :=
    (length_toLe x).trans (length_toLe y).symm
  unfold preimage at h
  obtain ⟨hfront, -⟩ := List.append_inj' h (hlength 32 _ _)
  obtain ⟨hfront, hsalt⟩ := List.append_inj' hfront (hlength 8 _ _)
  obtain ⟨hfront, -⟩ := List.append_inj' hfront (hword _ _)
  obtain ⟨hfront, howner⟩ := List.append_inj' hfront (hlength 32 _ _)
  obtain ⟨-, hpackage⟩ := List.append_inj' hfront (hlength 32 _ _)
  exact ⟨Subtype.ext hpackage, Subtype.ext howner, Subtype.ext hsalt⟩

end Build

end AvmSdk.Factory
