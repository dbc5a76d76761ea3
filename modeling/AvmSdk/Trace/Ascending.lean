import Mathlib.Data.List.Basic
import Mathlib.Order.Lattice

/-!
# A filter that asks for ascending keys

Items are sent with ascending keys, and arrive in any order, any number of times, or never. The filter
takes an item if its key is behind the last one that it has taken.

* `Taken key last sent taken`: the items that a filter has taken, with the last key.
* `Taken.take`: an item that is taken was not taken before, whatever has arrived in between.
-/

namespace AvmSdk.Trace

variable {α κ : Type} [LinearOrder κ] {key : α → κ}

/-- The items ascend. -/
def Ascends (key : α → κ) (items : List α) : Prop := items.Pairwise fun p q => key p < key q

/-- One more item behind all others. -/
theorem Ascends.concat {items : List α} (h : Ascends key items) {p : α}
    (hlast : ∀ q ∈ items, key q < key p) : Ascends key (items ++ [p]) := by
  refine List.pairwise_append.mpr ⟨h, List.pairwise_singleton _ p, fun q hq r hr => ?_⟩
  rw [List.mem_singleton.mp hr]
  exact hlast q hq

/-- Ascending items are distinct, and so are their keys. -/
theorem Ascends.nodup_keys {items : List α} (h : Ascends key items) : (items.map key).Nodup :=
  List.pairwise_map.mpr (h.imp fun hlt => hlt.ne)

/-- **What a filter has taken** of the items that were sent, if its last key is this one. -/
structure Taken (key : α → κ) (last : κ) (sent taken : List α) : Prop where
  sublist : taken.Sublist sent
  le_last : ∀ p ∈ taken, key p ≤ last

namespace Taken

variable {last : κ} {sent taken : List α}

/-- Nothing is taken yet. -/
theorem nil (key : α → κ) (last : κ) (sent : List α) : Taken key last sent [] :=
  ⟨List.nil_sublist sent, nofun⟩

/-- More items are sent. -/
theorem send (h : Taken key last sent taken) (more : List α) :
    Taken key last (sent ++ more) taken :=
  ⟨h.sublist.trans (List.sublist_append_left sent more), h.le_last⟩

/-- **One more item** with a greater key stands behind all items that were taken. -/
theorem take (h : Taken key last sent taken) (hsent : Ascends key sent) {p : α} (hp : p ∈ sent)
    (hlater : last < key p) : Taken key (key p) sent (taken ++ [p]) := by
  have hbefore : ∀ q ∈ taken, key q < key p := fun q hq => (h.le_last q hq).trans_lt hlater
  refine ⟨?_, fun q hq => ?_⟩
  · obtain ⟨front, back, rfl⟩ := List.append_of_mem hp
    obtain ⟨-, hback, -⟩ := List.pairwise_append.mp hsent
    obtain ⟨xs, ys, rfl, hxs, hys⟩ := List.sublist_append_iff.mp h.sublist
    -- what stands at `p` or behind it has no smaller key
    have hnone : ys = [] := by
      apply List.eq_nil_iff_forall_not_mem.mpr
      intro q hq
      have hlt : key q < key p := hbefore q (List.mem_append_right xs hq)
      rcases List.mem_cons.mp (hys.subset hq) with rfl | hbehind
      · exact lt_irrefl _ hlt
      · exact lt_asymm hlt ((List.pairwise_cons.mp hback).1 q hbehind)
    rw [hnone, List.append_nil]
    exact hxs.append (List.singleton_sublist.mpr List.mem_cons_self)
  · rcases List.mem_append.mp hq with hold | hnew
    · exact (hbefore q hold).le
    · rw [List.mem_singleton.mp hnew]

/-- The items that were taken are distinct. -/
theorem nodup_keys (h : Taken key last sent taken) (hsent : Ascends key sent) :
    (taken.map key).Nodup :=
  Ascends.nodup_keys (List.Pairwise.sublist h.sublist hsent)

end Taken

end AvmSdk.Trace
