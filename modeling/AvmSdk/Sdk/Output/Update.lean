import AvmSdk.Sdk.Output.Types
import AvmSdk.Wire.Patch

/-!
# Applying an update

What the host does with the state update of an answer: a full state replaces the old one, and patches
are written over it, one after the other.

* `StateUpdate.appliedTo`, `MessageOutput.appliedTo`, `BatchOutput.appliedTo`.
* `StatePatch.appliedTo_eq`: a patch that keeps the length writes over its range.
-/

namespace AvmSdk.Sdk

open Wire

/-- A patch replaces a range of the state. -/
def StatePatch.appliedTo (p : StatePatch) (state : Bytes) : Bytes :=
  state.take p.offset.toNat ++ (p.newBytes ++ state.drop (p.offset.toNat + p.oldLen.toNat))

/-- The state after an update. -/
def StateUpdate.appliedTo : StateUpdate → Bytes → Bytes
  | .fullReplace next, _ => next
  | .dataPatchList patches, state => patches.foldl (fun b p => p.appliedTo b) state

/-- The state after an answer: a failure leaves it. -/
def MessageOutput.appliedTo (output : MessageOutput) (state : Bytes) : Bytes :=
  output.stateUpdate.elim state fun update => update.appliedTo state

/-- The state after the answer to a batch. -/
def BatchOutput.appliedTo (output : BatchOutput) (state : Bytes) : Bytes :=
  output.stateUpdate.appliedTo state

/-- The patch keeps the length of the state. -/
def StatePatch.KeepsLength (p : StatePatch) : Prop := p.oldLen.toNat = p.newBytes.length

/-- A patch that keeps the length overwrites bytes. -/
theorem StatePatch.appliedTo_eq {p : StatePatch} (h : p.KeepsLength) (state : Bytes) :
    p.appliedTo state = patch state p.offset.toNat p.newBytes := by
  unfold appliedTo patch
  rw [h]

/-- Patches that keep the length are written one after the other. -/
theorem appliedTo_dataPatchList {patches : List StatePatch} (h : ∀ p ∈ patches, p.KeepsLength)
    (state : Bytes) : (StateUpdate.dataPatchList patches).appliedTo state =
      patches.foldl (fun b p => patch b p.offset.toNat p.newBytes) state := by
  show patches.foldl (fun b p => p.appliedTo b) state = _
  induction patches generalizing state with
  | nil => rfl
  | cons p patches ih =>
      rw [List.foldl_cons, List.foldl_cons, StatePatch.appliedTo_eq (h p List.mem_cons_self)]
      exact ih (fun q hq => h q (List.mem_cons_of_mem _ hq)) _

end AvmSdk.Sdk
