import AvmSdk.Sdk.Types

/-!
# Outputs

The output types of the guest crate. A Rust `String` is a Lean `String`, since both are valid UTF-8
byte strings; `asBytes` is `as_bytes`.
-/

namespace AvmSdk.Sdk

open Wire

/-- Source: `output.rs` `EncodeError` -/
inductive EncodeError
  | lengthOverflow
  | invalidStatusCode
  | missingStateUpdate
  | effectsOnFailure
  | stateModeMismatch
  | invalidExtraCurrencies
  | invalidPatchOrder
  | invalidIndex
  | invalidCallback
  | invalidEvent
  | upgradeForbidden
  | upgradeRequired
deriving DecidableEq, Repr

/-- `str::as_bytes`. -/
def asBytes (s : String) : Bytes := s.toByteArray.data.toList.map UInt8.toBitVec

/-- A string is determined by its bytes. -/
theorem asBytes_inj {s t : String} (h : asBytes s = asBytes t) : s = t := by
  have hlist := List.map_injective_iff.mpr (fun a b => UInt8.toBitVec_inj.mp) h
  exact String.toByteArray_inj.mp (ByteArray.ext (Array.toList_inj.mp hlist))

/-- Source: `output.rs` `StatePatch` -/
structure StatePatch where
  offset : U32
  oldLen : U32
  newBytes : Bytes
deriving DecidableEq

/-- Source: `output.rs` `StateUpdate` -/
inductive StateUpdate
  /-- The whole state. -/
  | fullReplace (state : Bytes)
  /-- Parts of the state, with what replaces them. -/
  | dataPatchList (patches : List StatePatch)
deriving DecidableEq

/-- Source: `output.rs` `StateUpdate::mode` -/
def StateUpdate.mode : StateUpdate → StateOutputMode
  | fullReplace _ => .fullReplace
  | dataPatchList _ => .dataPatchList

/-- Source: `output.rs` `OutboundIntent` -/
structure OutboundIntent where
  inputIndex : U32
  destination : AccountAddress
  fuelFeeShells : U128
  extra : List CurrencyAmount
  methodId : U64
  body : Bytes
deriving DecidableEq

/-- Source: `output.rs` `CallbackIntent` -/
structure CallbackIntent where
  outboundIndex : U32
  handlerMethodId : U64
deriving DecidableEq

/-- Source: `output.rs` `EventKind` -/
inductive EventKind
  | external
  | internal
deriving DecidableEq

/-- The discriminant, `kind as u8`. -/
def EventKind.toU8 : EventKind → U8
  | external => 0
  | internal => 1

/-- Source: `output.rs` `EventIntent` -/
structure EventIntent where
  inputIndex : U32
  kind : EventKind
  eventClass : U64
  eventName : String
  topics : List Bytes
  fieldsBinary : Bytes
deriving DecidableEq

/-- Source: `output.rs` `CodeUpgradeIntent` -/
structure CodeUpgradeIntent where
  targetSelectedCodeId : Bytes32
  expectedCodeHash : Bytes32
deriving DecidableEq

/-- Source: `output.rs` `MessageOutput` -/
structure MessageOutput where
  statusCode : U32
  stateUpdate : Option StateUpdate
  callbackResultBody : Bytes
  outboundIntents : List OutboundIntent
  callbackIntents : List CallbackIntent
  eventIntents : List EventIntent
  codeUpgradeIntent : Option CodeUpgradeIntent
deriving DecidableEq

/-- Source: `output.rs` `MessageOutput::success` -/
def MessageOutput.success (stateUpdate : StateUpdate) : MessageOutput where
  statusCode := 0
  stateUpdate := some stateUpdate
  callbackResultBody := []
  outboundIntents := []
  callbackIntents := []
  eventIntents := []
  codeUpgradeIntent := none

/-- Source: `output.rs` `MessageOutput::failure` -/
def MessageOutput.failure (statusCode : U32) : MessageOutput where
  statusCode := statusCode
  stateUpdate := none
  callbackResultBody := []
  outboundIntents := []
  callbackIntents := []
  eventIntents := []
  codeUpgradeIntent := none

/-- Source: `output.rs` `BatchOutput` -/
structure BatchOutput where
  stateUpdate : StateUpdate
  statusCodes : List U32
  outboundIntents : List OutboundIntent
  eventIntents : List EventIntent
deriving DecidableEq

/-- Source: `output.rs` `len_u16` -/
def lenU16 (length : ℕ) : Except EncodeError U16 := okOr (tryFromUsize 16 length) .lengthOverflow

/-- Source: `output.rs` `len_u32` -/
def lenU32 (length : ℕ) : Except EncodeError U32 := okOr (tryFromUsize 32 length) .lengthOverflow

/-- A length of at most 16 bits, -/
theorem lenU16_ok_iff {n : ℕ} {x : U16} : lenU16 n = .ok x ↔ n < 2 ^ 16 ∧ BitVec.ofNat 16 n = x := by
  rw [lenU16, okOr_ok_iff, tryFromUsize_eq_some]

/-- and one of at most 32 bits. -/
theorem lenU32_ok_iff {n : ℕ} {x : U32} : lenU32 n = .ok x ↔ n < 2 ^ 32 ∧ BitVec.ofNat 32 n = x := by
  rw [lenU32, okOr_ok_iff, tryFromUsize_eq_some]

/-- A length that fits has a `u16`. -/
theorem exists_lenU16_ok {n : ℕ} : (∃ x, lenU16 n = .ok x) ↔ n < 2 ^ 16 := by
  simp only [lenU16_ok_iff, exists_and_left, exists_eq', and_true]

/-- A length that fits has a `u32`. -/
theorem exists_lenU32_ok {n : ℕ} : (∃ x, lenU32 n = .ok x) ↔ n < 2 ^ 32 := by
  simp only [lenU32_ok_iff, exists_and_left, exists_eq', and_true]

end AvmSdk.Sdk
