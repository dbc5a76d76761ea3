import AvmSdk.Sdk.Machine
import AvmSdk.Wire.FixedWidth

/-!
# The shared types of the guest crate

The types of `lib.rs` that both codecs use, with the record formats in which they appear on the
wire: an address is its two 32-byte halves, a currency entry is an id and an amount.
-/

namespace AvmSdk.Sdk

open Wire

/-- The method identifier reserved for an account-local code upgrade.
Source: `lib.rs` `CODE_UPGRADE_METHOD_ID` -/
def codeUpgradeMethodId : U64 := 0xc2c6c51bc610249d

/-- Source: `lib.rs` `AccountAddress` -/
structure AccountAddress where
  /-- The application half. -/
  dappId : Bytes32
  /-- The account half. -/
  accountId : Bytes32
deriving DecidableEq

/-- Source: `lib.rs` `CurrencyAmount` -/
structure CurrencyAmount where
  /-- The currency. -/
  currencyId : U32
  /-- The amount, an `AvmAmount`. -/
  amount : U128
deriving DecidableEq

/-- Source: `lib.rs` `ExecutionContext` -/
structure ExecutionContext where
  /-- Logical time of the block. -/
  blockLt : U64
  /-- Time of the block. -/
  blockTime : U32
  /-- Sequence number of the block. -/
  blockSeqNo : U32
  /-- Randomness of the block. -/
  blockRand : Bytes32
deriving DecidableEq

/-- Source: `lib.rs` `StateOutputMode` -/
inductive StateOutputMode
  /-- The output carries the whole state. -/
  | fullReplace
  /-- The output carries a list of patches. -/
  | dataPatchList
deriving DecidableEq

/-- The discriminant, `mode as u8`. -/
def StateOutputMode.toU8 : StateOutputMode → U8
  | fullReplace => 0
  | dataPatchList => 1

/-- Whether a half of an address is all zero.
Source: `input.rs` `is_zero_address` -/
def isZeroAddress (address : AccountAddress) : Prop :=
  address.dappId = zeros 32 ∨ address.accountId = zeros 32

instance (address : AccountAddress) : Decidable (isZeroAddress address) :=
  inferInstanceAs (Decidable (_ ∨ _))

/-! ## Record formats -/

/-- The format of a 32-byte identifier. -/
def bytes32 : FixedWidth Byte Bytes32 := .array 32 (Nat.succ_pos 31)

/-- The format of an address: application half, account half. -/
def AccountAddress.format : FixedWidth Byte AccountAddress :=
  (bytes32.prod bytes32).equiv
    { toFun := fun x => ⟨x.1, x.2⟩
      invFun := fun a => (a.dappId, a.accountId)
      left_inv := fun _ => rfl
      right_inv := fun _ => rfl }

/-- The bytes of an address. -/
def AccountAddress.toBytes (a : AccountAddress) : Bytes := a.dappId.val ++ a.accountId.val

/-- The format of a currency entry: id, amount. -/
def CurrencyAmount.format : FixedWidth Byte CurrencyAmount :=
  (word32.prod word128).equiv
    { toFun := fun x => ⟨x.1, x.2⟩
      invFun := fun c => (c.currencyId, c.amount)
      left_inv := fun _ => rfl
      right_inv := fun _ => rfl }

/-- The bytes of a currency entry. -/
def CurrencyAmount.toBytes (c : CurrencyAmount) : Bytes := toLe c.currencyId ++ toLe c.amount

/-- The format of a block context: logical time, time, sequence number, randomness. -/
def ExecutionContext.toBytes (c : ExecutionContext) : Bytes :=
  toLe c.blockLt ++ (toLe c.blockTime ++ (toLe c.blockSeqNo ++ c.blockRand.val))

/-- An address takes 64 bytes. -/
@[simp] theorem AccountAddress.length_toBytes (a : AccountAddress) : a.toBytes.length = 64 := by
  rw [toBytes, List.length_append, a.dappId.property, a.accountId.property]

/-- An address is determined by its bytes. -/
theorem AccountAddress.toBytes_injective : Function.Injective AccountAddress.toBytes := by
  intro a b h
  obtain ⟨hdapp, haccount⟩ := List.append_inj h (a.dappId.property.trans b.dappId.property.symm)
  cases a
  cases b
  exact congrArg₂ AccountAddress.mk (Subtype.ext hdapp) (Subtype.ext haccount)

/-- Every string of the length of an address is one. -/
theorem AccountAddress.exists_toBytes {u : Bytes} (h : u.length = 64) :
    ∃ a : AccountAddress, a.toBytes = u := by
  have hdapp : (u.take 32).length = 32 := by
    rw [List.length_take]
    omega
  have haccount : (u.drop 32).length = 32 := by
    rw [List.length_drop]
    omega
  exact ⟨⟨⟨_, hdapp⟩, ⟨_, haccount⟩⟩, List.take_append_drop 32 u⟩

/-- A currency entry takes 20 bytes. -/
@[simp] theorem CurrencyAmount.length_toBytes (c : CurrencyAmount) : c.toBytes.length = 20 := by
  simp [toBytes]

/-- A block context takes 48 bytes. -/
@[simp] theorem ExecutionContext.length_toBytes (c : ExecutionContext) :
    c.toBytes.length = 48 := by
  simp [toBytes, c.blockRand.property]

end AvmSdk.Sdk
