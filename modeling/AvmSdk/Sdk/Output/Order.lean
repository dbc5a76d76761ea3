import AvmSdk.Sdk.Output.Validate
import Mathlib.Order.CompletePartialOrder
import Mathlib.Order.Interval.Set.Disjoint

/-!
# What the order checks imply

The shape checks compare a patch with the end of the one before it, a currency with its neighbour,
and a callback with a list of those before it. What consumers rely on is about any two of them.

* `ShapedPatches.pairwise_disjoint`: the replaced ranges of accepted patches do not meet.
* `order_checks_global`: what the local checks say about all pairs.
-/

namespace AvmSdk.Sdk

/-- The bytes of the old state that a patch replaces. -/
def StatePatch.range (patch : StatePatch) : Set ℕ := Set.Ico patch.offset.toNat patch.stop

/-- A patch that ends before another one begins replaces other bytes. -/
theorem StatePatch.disjoint_range {p q : StatePatch} (h : p.stop ≤ q.offset.toNat) :
    Disjoint p.range q.range := by
  unfold StatePatch.range
  rw [Set.Ico_disjoint_Ico]
  exact (min_le_left _ _).trans (h.trans (le_max_right _ _))

/-- The ranges of accepted patches do not meet. -/
theorem ShapedPatches.pairwise_disjoint {patches : List StatePatch} (h : ShapedPatches patches) :
    patches.Pairwise (fun p q => Disjoint p.range q.range) :=
  h.ordered.imp StatePatch.disjoint_range

/-- **Patches are accepted** exactly when there are at most 65,535 of them, every end and every
replacement fits 32 bits, and of any two of them the earlier one ends before the later one
begins. -/
theorem validateStateUpdate_patches_iff {patches : List StatePatch} :
    validateStateUpdate (some (.dataPatchList patches)) = .ok () ↔
      patches.length ≤ 65535 ∧
      (∀ p ∈ patches, p.offset.toNat + p.oldLen.toNat ≤ 2 ^ 32 - 1 ∧
        p.newBytes.length ≤ 2 ^ 32 - 1) ∧
      ∀ (i j : ℕ) (hij : i < j) (hj : j < patches.length),
        patches[i].offset.toNat + patches[i].oldLen.toNat ≤ patches[j].offset.toNat := by
  have hshaped : validateStateUpdate (some (.dataPatchList patches)) = .ok () ↔
      ShapedPatches patches := by
    rw [validateStateUpdate_ok_iff]
    exact ⟨fun h => h _ rfl, fun h => by rintro _ ⟨⟩; exact h⟩
  rw [hshaped]
  constructor
  · intro ⟨hlength, hstop, hnew, hordered⟩
    refine ⟨Nat.le_of_lt_succ hlength, fun p hp => ⟨?_, ?_⟩, fun i j hij hj => ?_⟩
    · exact Nat.le_pred_of_lt (hstop p hp)
    · exact Nat.le_pred_of_lt (hnew p hp)
    · exact List.pairwise_iff_getElem.mp hordered i j (hij.trans hj) hj hij
  · intro ⟨hlength, hfits, hordered⟩
    constructor
    case length => exact Nat.lt_succ_of_le hlength
    case stop_lt => exact fun p hp => Nat.lt_of_le_pred (Nat.two_pow_pos 32) (hfits p hp).1
    case newBytes_length =>
      exact fun p hp => Nat.lt_of_le_pred (Nat.two_pow_pos 32) (hfits p hp).2
    case ordered => exact List.pairwise_iff_getElem.mpr fun i j _ hj hij => hordered i j hij hj

/-- **The local order checks imply the global guarantees.** Accepted patches are exactly those that
are ordered, and replace disjoint ranges. The currencies of an accepted list ascend, hence are
distinct. The callbacks of an accepted output name distinct outbound intents of the output. -/
theorem order_checks_global [Target] :
    (∀ patches : List StatePatch,
      (validateStateUpdate (some (.dataPatchList patches)) = .ok () ↔
        patches.length ≤ 65535 ∧
        (∀ p ∈ patches, p.offset.toNat + p.oldLen.toNat ≤ 2 ^ 32 - 1 ∧
          p.newBytes.length ≤ 2 ^ 32 - 1) ∧
        ∀ (i j : ℕ) (hij : i < j) (hj : j < patches.length),
          patches[i].offset.toNat + patches[i].oldLen.toNat ≤ patches[j].offset.toNat) ∧
      (validateStateUpdate (some (.dataPatchList patches)) = .ok () →
        patches.Pairwise (fun p q => Disjoint p.range q.range))) ∧
    (∀ extra : List CurrencyAmount, validateExtra extra = .ok () →
      (extra.map CurrencyAmount.currencyId).Pairwise (· < ·) ∧
      (extra.map CurrencyAmount.currencyId).Nodup) ∧
    (∀ (output : MessageOutput) (requiredMode : Option StateOutputMode),
      validateMessageShape output requiredMode = .ok () →
      (output.callbackIntents.map CallbackIntent.outboundIndex).Nodup ∧
      ∀ callback ∈ output.callbackIntents,
        callback.outboundIndex.toNat < output.outboundIntents.length) := by
  refine ⟨fun patches => ⟨validateStateUpdate_patches_iff, fun h => ?_⟩, fun extra h => ?_,
    fun output requiredMode h => ?_⟩
  · have hshaped : ShapedPatches patches := validateStateUpdate_ok_iff.mp h _ rfl
    exact hshaped.pairwise_disjoint
  · obtain ⟨-, hascending⟩ := validateExtra_ok_iff.mp h
    exact ⟨hascending, hascending.imp fun hlt => BitVec.ne_of_lt hlt⟩
  · have hcallbacks := (validateMessageShape_ok_iff.mp h).callbackIntents_ok
    exact ⟨hcallbacks.outbound_nodup, hcallbacks.outbound_lt⟩

end AvmSdk.Sdk
