import Mathlib.Algebra.BigOperators.Group.List.Basic
import Mathlib.Algebra.Ring.Nat
import Mathlib.Data.List.Nodup

/-!
# Books kept in a list

A book is a list of entries, each a key with a value. It is searched from the front, so that the
first entry of a key counts.

* `valueOf`: the value of a key. `setFirst`: the book with another value for a key.
* `valueOf_setFirst`, `valueOf_append`: a change of one key shows at that key only.
* `total`, `total_setFirst`: the sum of the values, and what a change of one key does to it.
-/

namespace AvmSdk.Books

variable {κ α : Type} [DecidableEq κ] {k l : κ} {v u : α} {es fs : List (κ × α)}

/-- The value of the first entry with a key. -/
def valueOf (k : κ) (es : List (κ × α)) : Option α := (es.find? (·.1 = k)).map Prod.snd

/-- The book in which the first entry with a key has another value. -/
def setFirst (k : κ) (v : α) : List (κ × α) → List (κ × α)
  | [] => []
  | e :: es => if e.1 = k then (k, v) :: es else e :: setFirst k v es

/-- The sum of the values. -/
def total (f : α → ℕ) (es : List (κ × α)) : ℕ := (es.map fun e => f e.2).sum

/-- Nothing is found in no entries. -/
@[simp] theorem valueOf_nil : valueOf k ([] : List (κ × α)) = none := rfl

/-- The first entry is found, or one of the rest. -/
theorem valueOf_cons (e : κ × α) (es : List (κ × α)) :
    valueOf k (e :: es) = if e.1 = k then some e.2 else valueOf k es := by
  unfold valueOf
  by_cases h : e.1 = k <;> simp [h]

/-- A key without a value is not in the book. -/
theorem valueOf_eq_none_iff : valueOf k es = none ↔ k ∉ es.map Prod.fst := by
  unfold valueOf
  rw [Option.map_eq_none_iff, List.find?_eq_none, List.mem_map]
  constructor
  · rintro h ⟨e, he, rfl⟩
    exact h e he (decide_eq_true rfl)
  · intro h e he hkey
    exact h ⟨e, he, of_decide_eq_true hkey⟩

/-- A book that goes on behind another one. -/
theorem valueOf_append : valueOf k (es ++ fs) = (valueOf k es).or (valueOf k fs) := by
  unfold valueOf
  rw [List.find?_append]
  cases es.find? (·.1 = k) <;> rfl

/-! ## Changes of one key -/

/-- The keys stay where they are. -/
@[simp] theorem keys_setFirst : (setFirst k v es).map Prod.fst = es.map Prod.fst := by
  induction es with
  | nil => rfl
  | cons e es ih =>
      unfold setFirst
      by_cases h : e.1 = k
      · rw [if_pos h, List.map_cons, List.map_cons, h]
      · rw [if_neg h, List.map_cons, List.map_cons, ih]

/-- The number of entries stays. -/
@[simp] theorem length_setFirst : (setFirst k v es).length = es.length := by
  have h : ((setFirst k v es).map Prod.fst).length = (es.map Prod.fst).length :=
    congrArg List.length keys_setFirst
  rwa [List.length_map, List.length_map] at h

/-- **A change of one key** shows at that key only. -/
theorem valueOf_setFirst : valueOf l (setFirst k v es) =
    if l = k then (valueOf k es).map fun _ => v else valueOf l es := by
  induction es with
  | nil =>
      unfold setFirst
      by_cases h : l = k <;> simp [h]
  | cons e es ih =>
      unfold setFirst
      by_cases hek : e.1 = k
      · rw [if_pos hek, valueOf_cons, valueOf_cons, valueOf_cons, if_pos hek]
        by_cases hl : l = k
        · rw [if_pos hl, if_pos hl.symm]
          rfl
        · have hkl : ¬ k = l := fun h => hl h.symm
          rw [if_neg hl, if_neg hkl, if_neg (by rw [hek]; exact hkl)]
      · rw [if_neg hek, valueOf_cons, valueOf_cons, valueOf_cons, if_neg hek, ih]
        by_cases hl : l = k
        · rw [if_pos hl, if_pos hl, if_neg (by rw [hl]; exact hek)]
        · rw [if_neg hl, if_neg hl]

/-! ## Sums -/

variable {f : α → ℕ}

omit [DecidableEq κ] in
/-- The total of no entries, -/
@[simp] theorem total_nil : total f ([] : List (κ × α)) = 0 := rfl

omit [DecidableEq κ] in
/-- of one more, -/
@[simp] theorem total_cons (e : κ × α) (es : List (κ × α)) :
    total f (e :: es) = f e.2 + total f es := by
  unfold total
  rw [List.map_cons, List.sum_cons]

omit [DecidableEq κ] in
/-- and of two parts. -/
@[simp] theorem total_append : total f (es ++ fs) = total f es + total f fs := by
  unfold total
  rw [List.map_append, List.sum_append]

/-- **The sum** exchanges the old value of a key for the new one. -/
theorem total_setFirst (h : valueOf k es = some u) :
    total f (setFirst k v es) + f u = total f es + f v := by
  induction es with
  | nil => exact absurd h (by simp)
  | cons e es ih =>
      rw [valueOf_cons] at h
      unfold setFirst
      by_cases hek : e.1 = k
      · rw [if_pos hek, Option.some.injEq] at h
        rw [if_pos hek, total_cons, total_cons, h]
        show f v + total f es + f u = f u + total f es + f v
        omega
      · rw [if_neg hek] at h
        rw [if_neg hek, total_cons, total_cons]
        have hrest := ih h
        omega

/-- A value is a part of the sum. -/
theorem le_total (h : valueOf k es = some v) : f v ≤ total f es := by
  induction es with
  | nil => exact absurd h (by simp)
  | cons e es ih =>
      rw [valueOf_cons] at h
      rw [total_cons]
      by_cases hek : e.1 = k
      · rw [if_pos hek, Option.some.injEq] at h
        rw [h]
        exact Nat.le_add_right _ _
      · rw [if_neg hek] at h
        exact (ih h).trans (Nat.le_add_left _ _)

end AvmSdk.Books
