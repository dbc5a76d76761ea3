import AvmSdk.Contracts.Hub.Core
import Mathlib.Tactic.FinCases

/-!
# The configuration of a vault

The signers, the time rules and the members of a vault, fixed at its deployment.

* `Config.Valid`: what `Config::validate` accepts (`Config.validate_ok_iff`): distinct signers,
  members with distinct keys and distinct destinations, weights that sum up to the whole.
* `Config.decode_ok_iff`: the decoder accepts exactly the encodings of valid configurations.
-/

namespace AvmSdk.Hub

open Wire Sdk Contracts Shares

/-- Source: `CONFIG_BYTES` -/
abbrev configBytes : ℕ := 1792

/-- Source: `Member` -/
structure Member where
  key : Bytes32
  destination : AccountAddress
  weight : U16
deriving DecidableEq

/-- Source: `Member::default` -/
def Member.default : Member := ⟨zeros 32, zeroAddress, 0⟩

/-- Source: `Config` -/
structure Config where
  signers : Fin 3 → Bytes32
  delay : U32
  voteWindow : U32
  initialFuel : U128
  count : U8
  members : Fin maxMembers → Member

namespace Config

/-- The check of the signers.
Source: `Config::validate`, `self.signers.iter().enumerate().any` -/
def SignerClash (self : Config) : Prop :=
  ∃ i, self.signers i = zeros 32 ∨ ∃ j < i, self.signers j = self.signers i

instance (self : Config) : Decidable self.SignerClash :=
  inferInstanceAs (Decidable (∃ _, _))

/-- The checks of one member, with the weights so far.
Source: `Config::validate`, `for (i, m) in self.members.iter().enumerate()` -/
def checkMember (self : Config) (total : U32) (i : Fin maxMembers) : HubResult U32 :=
  let m := self.members i
  if i.val < self.count.toNat then do
    failIf (m.key = zeros 32 ∨ ¬ nonzeroAddress m.destination ∨ m.weight = 0 ∨
      ∃ j < i, (self.members j).key = m.key ∨ (self.members j).destination = m.destination) eArgs
    okOr (wordCheckedAdd total (m.weight.zeroExtend 32)) eArgs
  else do
    failIf (m ≠ Member.default) eArgs
    pure total

/-- Source: `Config::validate` -/
def validate (self : Config) : HubResult Unit := do
  let n := self.count.toNat
  failIf (n = 0 ∨ maxMembers < n ∨ self.delay = 0 ∨ self.voteWindow = 0 ∨ self.initialFuel = 0 ∨
    self.SignerClash) eArgs
  let total ← (List.finRange maxMembers).foldlM self.checkMember (0 : U32)
  failIf (total ≠ 10000) eArgs

/-- Source: `Config::decode`, `for (i, m) in members.iter_mut().enumerate()` -/
def decodeMember [Target] (b : Bytes) (i : Fin maxMembers) : HubResult Member := do
  let o := 128 + i.val * 104
  failIf (b.extract (o + 98) (o + 104) ≠ (zeros 6).val) eArgs
  let key ← arrayAt eArgs 32 b o
  let destination ← addressAt eArgs b (o + 32)
  let weight ← wordAt eArgs 16 b (o + 96)
  pure ⟨key, destination, weight⟩

/-- Source: `Config::decode` -/
def decode [Target] (b : Bytes) : HubResult Config := do
  failIf (b.length ≠ configBytes ∨ b.extract 121 128 ≠ (zeros 7).val) eArgs
  let signers ← tabulateM 3 fun i => arrayAt eArgs 32 b (i.val * 32)
  let members ← tabulateM maxMembers (decodeMember b)
  let delay ← wordAt eArgs 32 b 96
  let voteWindow ← wordAt eArgs 32 b 100
  let initialFuel ← wordAt eArgs 128 b 104
  let c : Config := ⟨signers, delay, voteWindow, initialFuel, b.getD 120 0, members⟩
  c.validate
  pure c

/-- Source: `Config::encode`, `for (i, m) in self.members.iter().enumerate()` -/
def encodeMember (m : Member) : Bytes :=
  [m.key.val, m.destination.toBytes, toLe m.weight, (zeros 6).val].flatten

/-- The fields one after the other, as they stand in the buffer of zeros that the source fills.
Source: `Config::encode` -/
def encode (self : Config) : Bytes :=
  [(List.ofFn fun i => (self.signers i).val).flatten, toLe self.delay, toLe self.voteWindow,
    toLe self.initialFuel, [self.count], (zeros 7).val,
    (List.ofFn fun i => encodeMember (self.members i)).flatten].flatten

/-- Source: `Config::signer` -/
def signer (self : Config) (key : Bytes32) : HubResult (Fin 3) :=
  okOr ((List.finRange 3).find? fun i => self.signers i = key) eAuth

/-- The configurations that pass the check. -/
structure Valid (c : Config) : Prop where
  count_ne_zero : c.count.toNat ≠ 0
  count_le : c.count.toNat ≤ maxMembers
  delay_ne_zero : c.delay ≠ 0
  voteWindow_ne_zero : c.voteWindow ≠ 0
  initialFuel_ne_zero : c.initialFuel ≠ 0
  signers_ne_zero : ∀ i, c.signers i ≠ zeros 32
  signers_injective : Function.Injective c.signers
  key_ne_zero : ∀ i, i.val < c.count.toNat → (c.members i).key ≠ zeros 32
  destination_ne_zero : ∀ i, i.val < c.count.toNat → nonzeroAddress (c.members i).destination
  weight_ne_zero : ∀ i, i.val < c.count.toNat → (c.members i).weight ≠ 0
  keys_distinct : ∀ i j, i.val < c.count.toNat → j < i → (c.members j).key ≠ (c.members i).key
  destinations_distinct : ∀ i j, i.val < c.count.toNat → j < i →
    (c.members j).destination ≠ (c.members i).destination
  idle : ∀ i, c.count.toNat ≤ i.val → c.members i = Member.default
  weights_sum : ∑ i, (c.members i).weight.toNat = 10000

/-! ## Validation -/

variable {c : Config}

/-- What the loop asks of a member. -/
def MemberOk (c : Config) (i : Fin maxMembers) : Prop :=
  (i.val < c.count.toNat → (c.members i).key ≠ zeros 32 ∧
    nonzeroAddress (c.members i).destination ∧ (c.members i).weight ≠ 0 ∧
    ∀ j < i, (c.members j).key ≠ (c.members i).key ∧
      (c.members j).destination ≠ (c.members i).destination) ∧
  (c.count.toNat ≤ i.val → c.members i = Member.default)

/-- A member passes its check, and adds its weight. -/
theorem checkMember_ok_iff {total total' : U32} {i : Fin maxMembers} :
    c.checkMember total i = .ok total' ↔
      c.MemberOk i ∧ total'.toNat = total.toNat + (c.members i).weight.toNat := by
  have hweight : ((c.members i).weight.zeroExtend 32).toNat = (c.members i).weight.toNat := by
    have := (c.members i).weight.isLt
    rw [BitVec.toNat_setWidth, Nat.mod_eq_of_lt (by omega)]
  unfold checkMember MemberOk
  by_cases hi : i.val < c.count.toNat
  · have hle : ¬ c.count.toNat ≤ i.val := by omega
    simp only [hi, hle, if_true, bind_ok_iff, failIf_ok_iff, exists_const, okOr_ok_iff,
      wordCheckedAdd_eq_some, hweight, not_or, not_not, not_exists, not_and, forall_const,
      false_implies, and_true, eq_comm (a := total'.toNat), Ne]
  · have hle : c.count.toNat ≤ i.val := by omega
    simp only [hi, hle, if_false, bind_ok_iff, failIf_ok_iff, exists_const, pure_ok_iff, not_not,
      false_implies, forall_const, true_and]
    constructor
    · rintro ⟨hm, rfl⟩
      exact ⟨hm, by rw [hm]; rfl⟩
    · rintro ⟨hm, hv⟩
      refine ⟨hm, BitVec.eq_of_toNat_eq ?_⟩
      rw [hv, hm]
      rfl

/-- The loop over the members succeeds when each of them passes, with the sum of the weights. -/
theorem foldlM_checkMember_ok_iff {total : U32} :
    (List.finRange maxMembers).foldlM c.checkMember (0 : U32) = .ok total ↔
      (∀ i, c.MemberOk i) ∧ total.toNat = ∑ i, (c.members i).weight.toNat := by
  have h := foldlM_word_iff (P := c.MemberOk) (f := fun i => (c.members i).weight.toNat)
    (fun _ _ _ => checkMember_ok_iff) (List.finRange maxMembers) (u := total)
  simpa only [List.mem_finRange, forall_const, sum_finRange] using h

/-- Signers that do not clash are there and distinct. -/
theorem not_signerClash_iff :
    ¬ c.SignerClash ↔ (∀ i, c.signers i ≠ zeros 32) ∧ Function.Injective c.signers := by
  unfold SignerClash
  push Not
  constructor
  · intro h
    refine ⟨fun i => (h i).1, fun i j hij => ?_⟩
    rcases lt_trichotomy i j with hlt | heq | hlt
    · exact absurd hij ((h j).2 i hlt)
    · exact heq
    · exact absurd hij.symm ((h i).2 j hlt)
  · rintro ⟨hzero, hinj⟩ i
    exact ⟨hzero i, fun j hj heq => hj.ne (hinj heq)⟩

/-- **Validation of a configuration.** -/
theorem validate_ok_iff {u : Unit} : c.validate = .ok u ↔ c.Valid := by
  simp only [validate, bind_ok_iff, failIf_ok_iff, exists_const, foldlM_checkMember_ok_iff, not_or,
    not_not, not_lt, not_signerClash_iff]
  constructor
  · rintro ⟨⟨hcount, hle, hdelay, hwindow, hfuel, hsigners, hinj⟩, total, ⟨hmembers, hsum⟩, rfl⟩
    exact {
      count_ne_zero := hcount
      count_le := hle
      delay_ne_zero := hdelay
      voteWindow_ne_zero := hwindow
      initialFuel_ne_zero := hfuel
      signers_ne_zero := hsigners
      signers_injective := hinj
      key_ne_zero := fun i hi => ((hmembers i).1 hi).1
      destination_ne_zero := fun i hi => ((hmembers i).1 hi).2.1
      weight_ne_zero := fun i hi => ((hmembers i).1 hi).2.2.1
      keys_distinct := fun i j hi hj => (((hmembers i).1 hi).2.2.2 j hj).1
      destinations_distinct := fun i j hi hj => (((hmembers i).1 hi).2.2.2 j hj).2
      idle := fun i hi => (hmembers i).2 hi
      weights_sum := hsum.symm }
  · intro h
    refine ⟨⟨h.count_ne_zero, h.count_le, h.delay_ne_zero, h.voteWindow_ne_zero,
      h.initialFuel_ne_zero, h.signers_ne_zero, h.signers_injective⟩, 10000, ⟨fun i => ⟨fun hi =>
      ⟨h.key_ne_zero i hi, h.destination_ne_zero i hi, h.weight_ne_zero i hi, fun j hj =>
        ⟨h.keys_distinct i j hi hj, h.destinations_distinct i j hi hj⟩⟩, h.idle i⟩, ?_⟩, rfl⟩
    rw [h.weights_sum]
    rfl

namespace Valid

/-- Members have different destinations. -/
theorem destination_injective (h : c.Valid) {i j : Fin maxMembers} (hi : i.val < c.count.toNat)
    (hj : j.val < c.count.toNat)
    (heq : (c.members i).destination = (c.members j).destination) : i = j := by
  rcases lt_trichotomy i j with hlt | rfl | hlt
  · exact absurd heq (h.destinations_distinct j i hj hlt)
  · rfl
  · exact absurd heq.symm (h.destinations_distinct i j hi hlt)

/-- No weight exceeds the whole. -/
theorem weight_le (h : c.Valid) (i : Fin maxMembers) : (c.members i).weight.toNat ≤ 10000 := by
  rw [← h.weights_sum]
  exact Finset.single_le_sum (f := fun i => (c.members i).weight.toNat) (fun _ _ => Nat.zero_le _)
    (Finset.mem_univ i)

/-- The initial fuel is no part of the other rules. -/
theorem withInitialFuel (h : c.Valid) {fuel : U128} (hfuel : fuel ≠ 0) :
    ({ c with initialFuel := fuel } : Config).Valid :=
  ⟨h.count_ne_zero, h.count_le, h.delay_ne_zero, h.voteWindow_ne_zero, hfuel, h.signers_ne_zero,
    h.signers_injective, h.key_ne_zero, h.destination_ne_zero, h.weight_ne_zero, h.keys_distinct,
    h.destinations_distinct, h.idle, h.weights_sum⟩

end Valid

/-! ## Encoding -/

/-- The encodings of the fields have fixed lengths. -/
theorem lengths_encodeMember (m : Member) :
    [m.key.val, m.destination.toBytes, toLe m.weight, (zeros 6).val].map List.length =
      [32, 64, 2, 6] := by
  simp

/-- The length of a member, -/
@[simp] theorem length_encodeMember (m : Member) : (encodeMember m).length = 104 :=
  length_flatten_of_lengths (lengths_encodeMember m)

/-- the lengths of the fields of a configuration, -/
theorem lengths_encode (c : Config) :
    [(List.ofFn fun i => (c.signers i).val).flatten, toLe c.delay, toLe c.voteWindow,
      toLe c.initialFuel, [c.count], (zeros 7).val,
      (List.ofFn fun i => encodeMember (c.members i)).flatten].map List.length =
      [96, 4, 4, 16, 1, 7, 1664] := by
  have hsigners : (List.ofFn fun i => (c.signers i).val).flatten.length = 3 * 32 :=
    length_flatten_rows fun i => length_bytesN _
  have hmembers : (List.ofFn fun i => encodeMember (c.members i)).flatten.length = 16 * 104 :=
    length_flatten_rows fun i => length_encodeMember _
  simp only [List.map_cons, List.map_nil, hsigners, hmembers, length_toLe, length_bytesN,
    List.length_singleton]

/-- and that of them all. -/
@[simp] theorem length_encode (c : Config) : c.encode.length = configBytes :=
  length_flatten_of_lengths (lengths_encode c)

/-- A row of the member table that is read back. -/
theorem encodeMember_eq_extract_iff {b : Bytes} {o : ℕ} (hlen : o + 104 ≤ b.length) {m : Member} :
    encodeMember m = b.extract o (o + 104) ↔
      m.key.val = b.extract o (o + 32) ∧ m.destination.toBytes = b.extract (o + 32) (o + 96) ∧
        toLe m.weight = b.extract (o + 96) (o + 98) ∧
        (zeros 6).val = b.extract (o + 98) (o + 104) := by
  have h := flatten_eq_extract_iff (lengths_encodeMember m) hlen
  simpa only [encodeMember, splitParts, List.cons.injEq, and_true, Nat.add_assoc, Nat.reduceAdd,
    List.sum_cons, List.sum_nil] using h

/-- A word is an encoding exactly when each field stands at its offset. -/
theorem encode_eq_iff {b : Bytes} (hlen : b.length = configBytes) :
    c.encode = b ↔
      (∀ i : Fin 3, (c.signers i).val = b.extract (i * 32) (i * 32 + 32)) ∧
        toLe c.delay = b.extract 96 100 ∧ toLe c.voteWindow = b.extract 100 104 ∧
        toLe c.initialFuel = b.extract 104 120 ∧ c.count = b.getD 120 0 ∧
        (zeros 7).val = b.extract 121 128 ∧
        ∀ i : Fin maxMembers,
          encodeMember (c.members i) = b.extract (128 + i * 104) (128 + i * 104 + 104) := by
  have hsigners : (List.ofFn fun i => (c.signers i).val).flatten = b.extract 0 96 ↔
      ∀ i : Fin 3, (c.signers i).val = b.extract (0 + i * 32) (0 + i * 32 + 32) :=
    flatten_rows_iff (fun i => length_bytesN (c.signers i)) (by rw [hlen]; decide)
  have hmembers : (List.ofFn fun i => encodeMember (c.members i)).flatten = b.extract 128 1792 ↔
      ∀ i : Fin maxMembers,
        encodeMember (c.members i) = b.extract (128 + i * 104) (128 + i * 104 + 104) :=
    flatten_rows_iff (fun i => length_encodeMember (c.members i)) (by rw [hlen]; decide)
  have hcount : b.extract 120 121 = [b.getD 120 0] := extract_one (by rw [hlen]; decide)
  simp only [Nat.zero_add] at hsigners
  rw [encode, flatten_eq_iff (lengths_encode c) hlen]
  simp only [splitParts, List.cons.injEq, and_true, Nat.reduceAdd, hcount, hsigners, hmembers]

/-- A row of the member table is decoded exactly when it is the encoding of the member. -/
theorem decodeMember_ok_iff [Target] {b : Bytes} (hlen : b.length = configBytes)
    {i : Fin maxMembers} {m : Member} : decodeMember b i = .ok m ↔
      encodeMember m = b.extract (128 + i * 104) (128 + i * 104 + 104) := by
  have hi := i.isLt
  have hsmall : b.length < 2 ^ 32 := by rw [hlen]; decide
  have hrow : 128 + i.val * 104 + 104 ≤ b.length := by
    rw [hlen]
    unfold configBytes maxMembers at *
    omega
  rw [encodeMember_eq_extract_iff hrow]
  simp only [decodeMember, bind_ok_iff, failIf_ok_iff, pure_ok_iff, exists_const, not_not]
  generalize 128 + i.val * 104 = o at hrow ⊢
  have hdest : o + 32 + 64 ≤ b.length := by omega
  have hweight : o + 96 + 16 / 8 ≤ b.length := by omega
  simp only [arrayAt_ok_iff hsmall (show o + 32 ≤ b.length by omega),
    addressAt_ok_iff hsmall hdest, wordAt_ok_iff hsmall (show 8 ∣ 16 by decide) hweight]
  constructor
  · rintro ⟨hpad, key, hkey, destination, hdestination, weight, hweight, rfl⟩
    exact ⟨hkey, hdestination, hweight, hpad.symm⟩
  · rintro ⟨hkey, hdestination, hweight, hpad⟩
    exact ⟨hpad.symm, m.key, hkey, m.destination, hdestination, m.weight, hweight, rfl⟩

/-- **Decoding a configuration.** -/
theorem decode_ok_iff [Target] {b : Bytes} : decode b = .ok c ↔ c.encode = b ∧ c.Valid := by
  by_cases hlen : b.length = configBytes
  · have hsmall : b.length < 2 ^ 32 := by rw [hlen]; decide
    have hsigner (i : Fin 3) : i * 32 + 32 ≤ b.length := by
      have := i.isLt
      rw [hlen]; unfold configBytes; omega
    have hword {w o : ℕ} (hw : 8 ∣ w) (ho : o + w / 8 ≤ configBytes) {x : BitVec w} :
        wordAt eArgs w b o = .ok x ↔ toLe x = b.extract o (o + w / 8) :=
      wordAt_ok_iff hsmall hw (hlen ▸ ho)
    simp only [decode, hlen, ne_eq, not_true_eq_false, false_or, bind_ok_iff, failIf_ok_iff,
      pure_ok_iff, exists_const, not_not, tabulateM_ok_iff, decodeMember_ok_iff hlen,
      arrayAt_ok_iff hsmall (hsigner _), hword (w := 32) (o := 96) (by decide) (by decide),
      hword (w := 32) (o := 100) (by decide) (by decide),
      hword (w := 128) (o := 104) (by decide) (by decide), validate_ok_iff, encode_eq_iff hlen,
      Nat.reduceAdd, Nat.reduceDiv]
    constructor
    · rintro ⟨hpad, signers, hsigners, members, hmembers, delay, hdelay, window, hwindow, fuel,
        hfuel, hvalid, rfl⟩
      exact ⟨⟨hsigners, hdelay, hwindow, hfuel, rfl, hpad.symm, hmembers⟩, hvalid⟩
    · rintro ⟨⟨hsigners, hdelay, hwindow, hfuel, hcount, hpad, hmembers⟩, hvalid⟩
      have hc : (⟨c.signers, c.delay, c.voteWindow, c.initialFuel, b.getD 120 0, c.members⟩ :
          Config) = c := by rw [← hcount]
      exact ⟨hpad.symm, c.signers, hsigners, c.members, hmembers, c.delay, hdelay, c.voteWindow,
        hwindow, c.initialFuel, hfuel, hc ▸ hvalid, hc⟩
  · have hno : c.encode ≠ b := fun h => hlen (h ▸ length_encode c)
    simp only [decode, hlen, ne_eq, not_false_eq_true, true_or, bind_ok_iff, failIf_ok_iff,
      not_true_eq_false, false_and, exists_false, hno]

end Config

end AvmSdk.Hub
