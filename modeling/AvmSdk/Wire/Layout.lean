import AvmSdk.Wire.Blocks
import AvmSdk.Wire.Checked
import Mathlib.Data.List.OfFn
import Mathlib.Tactic.Ring

/-!
# Records at fixed offsets

A record of fixed layout is written as its parts one after the other and read back field by field,
each field at its own offset.

* `splitParts p lens bs`: the parts of the given lengths that stand in `bs` from position `p` on.
  `flatten_eq_extract_iff`: a sequence of parts of these lengths fills a range exactly when each
  part is what stands at its offset.
* `flatten_rows_iff`: the same for rows of one width.
* `tabulateM`: an array that is read entry by entry, where every entry may fail.
-/

namespace AvmSdk.Wire

variable {α β ε : Type} {bs : List β} {p : ℕ}

/-- The parts of the given lengths that stand one after the other from position `p` on. -/
def splitParts (p : ℕ) : List ℕ → List β → List (List β)
  | [], _ => []
  | n :: ns, bs => bs.extract p (p + n) :: splitParts (p + n) ns bs

/-- The length of a range inside a word. -/
theorem length_extract_of_le {q : ℕ} (h : q ≤ bs.length) :
    (bs.extract p q).length = q - p := by
  rw [List.extract_eq_take_drop, List.length_take, List.length_drop]
  omega

/-- Two adjacent ranges make one. -/
theorem extract_append_extract {q r : ℕ} (hpq : p ≤ q) (hqr : q ≤ r) (bs : List β) :
    bs.extract p q ++ bs.extract q r = bs.extract p r := by
  have hq : q = p + (q - p) := by omega
  have hr : r - p = (q - p) + (r - q) := by omega
  rw [List.extract_eq_take_drop, List.extract_eq_take_drop, List.extract_eq_take_drop, hr,
    List.take_add, List.drop_drop]
  congr 3

/-- A range of a word as long as the word is the word. -/
theorem extract_zero_length {n : ℕ} (h : bs.length = n) : bs.extract 0 n = bs := by
  subst h
  rw [List.extract_eq_take_drop, List.drop_zero, Nat.sub_zero, List.take_length]

/-- A range inside the front of a word. -/
theorem extract_extract {n q : ℕ} (h : q ≤ n) : (bs.extract 0 n).extract p q = bs.extract p q := by
  have hmin : min (q - p) (n - p) = q - p := Nat.min_eq_left (Nat.sub_le_sub_right h p)
  rw [List.extract_eq_take_drop, List.extract_eq_take_drop, List.extract_eq_take_drop,
    List.drop_zero, Nat.sub_zero, List.drop_take, List.take_take, hmin]

/-- A range of one entry. -/
theorem extract_one {d : β} (h : p < bs.length) : bs.extract p (p + 1) = [bs.getD p d] := by
  rw [List.extract_eq_take_drop, Nat.add_sub_cancel_left, List.getD_eq_getElem?_getD,
    List.getElem?_eq_getElem h, Option.getD_some, List.drop_eq_getElem_cons h, List.take_succ_cons,
    List.take_zero]

/-- An entry of a range. -/
theorem getD_extract {q k : ℕ} {d : β} (h : p + k < q) :
    (bs.extract p q).getD k d = bs.getD (p + k) d := by
  rw [List.extract_eq_take_drop, List.getD_eq_getElem?_getD, List.getElem?_take_of_lt (by omega),
    List.getElem?_drop, List.getD_eq_getElem?_getD]

/-- The parts of a range make up the range. -/
theorem flatten_splitParts (lens : List ℕ) (p : ℕ) (bs : List β) :
    (splitParts p lens bs).flatten = bs.extract p (p + lens.sum) := by
  induction lens generalizing p with
  | nil =>
      rw [List.sum_nil, List.extract_eq_take_drop, Nat.add_zero, Nat.sub_self, List.take_zero]
      rfl
  | cons n ns ih =>
      rw [splitParts, List.flatten_cons, ih, List.sum_cons,
        extract_append_extract (by omega) (by omega), Nat.add_assoc]

/-- **Reading back a record.** Parts of known lengths fill a range exactly when each part stands
at its offset. -/
theorem flatten_eq_extract_iff {lens : List ℕ} {parts : List (List β)}
    (hlens : parts.map List.length = lens) (hle : p + lens.sum ≤ bs.length) :
    parts.flatten = bs.extract p (p + lens.sum) ↔ parts = splitParts p lens bs := by
  constructor
  · subst hlens
    intro h
    induction parts generalizing p with
    | nil => rfl
    | cons part parts ih =>
        rw [List.map_cons, List.sum_cons] at h hle
        rw [List.flatten_cons, ← Nat.add_assoc,
          ← extract_append_extract (q := p + part.length) (by omega) (by omega)] at h
        obtain ⟨hpart, hparts⟩ := List.append_inj h
          (by rw [length_extract_of_le (by omega)]; omega)
        rw [List.map_cons, splitParts, ← hpart, ← ih (by omega) hparts]
  · rintro rfl
    exact flatten_splitParts lens p bs

/-- A whole word against its parts. -/
theorem flatten_eq_iff {lens : List ℕ} {parts : List (List β)}
    (hlens : parts.map List.length = lens) (hlen : bs.length = lens.sum) :
    parts.flatten = bs ↔ parts = splitParts 0 lens bs := by
  have hle : 0 + lens.sum ≤ bs.length := by omega
  have h := flatten_eq_extract_iff hlens hle
  rwa [Nat.zero_add, extract_zero_length hlen] at h

/-- The length of a record is the sum of the lengths of its parts. -/
theorem length_flatten_of_lengths {lens : List ℕ} {parts : List (List β)}
    (hlens : parts.map List.length = lens) : parts.flatten.length = lens.sum := by
  rw [List.length_flatten, hlens]

/-! ## Rows of one width -/

/-- The length of a table of rows. -/
theorem length_flatten_rows {n w : ℕ} {rows : Fin n → List β} (h : ∀ i, (rows i).length = w) :
    (List.ofFn rows).flatten.length = n * w := by
  induction n with
  | zero => simp
  | succ n ih =>
      rw [List.ofFn_succ, List.flatten_cons, List.length_append, h, ih fun i => h i.succ]
      ring

/-- **Reading back a table.** Rows of one width fill a range exactly when each row stands at its
offset. -/
theorem flatten_rows_iff {n w : ℕ} {rows : Fin n → List β} (h : ∀ i, (rows i).length = w)
    (hle : p + n * w ≤ bs.length) :
    (List.ofFn rows).flatten = bs.extract p (p + n * w) ↔
      ∀ i : Fin n, rows i = bs.extract (p + i * w) (p + i * w + w) := by
  induction n generalizing p with
  | zero => simp [List.extract_eq_take_drop]
  | succ n ih =>
      have hw : p + (n + 1) * w = p + w + n * w := by ring
      have hrow : ∀ i : Fin n, p + (i.succ : Fin (n + 1)) * w = p + w + i * w := by
        intro i
        rw [Fin.val_succ]
        ring
      rw [hw] at hle ⊢
      have hsplit := extract_append_extract (p := p) (q := p + w) (r := p + w + n * w) (by omega)
        (by omega) bs
      rw [List.ofFn_succ, List.flatten_cons, Fin.forall_fin_succ, ← hsplit]
      simp only [hrow, Fin.val_zero, Nat.zero_mul, Nat.add_zero]
      rw [← ih (fun i => h i.succ) hle]
      constructor
      · intro heq
        exact List.append_inj heq (by rw [h, length_extract_of_le (by omega)]; omega)
      · rintro ⟨hfirst, hrest⟩
        rw [hfirst, hrest]

/-! ## Arrays -/

/-- Read an array entry by entry; the first entry that fails is the result. -/
def tabulateM : (n : ℕ) → (Fin n → Except ε α) → Except ε (Fin n → α)
  | 0, _ => .ok Fin.elim0
  | n + 1, read => do
      let a ← read 0
      let rest ← tabulateM n fun i => read i.succ
      .ok (Fin.cons a rest)

/-- An array is read exactly when each of its entries is. -/
theorem tabulateM_ok_iff {n : ℕ} {read : Fin n → Except ε α} {a : Fin n → α} :
    tabulateM n read = .ok a ↔ ∀ i, read i = .ok (a i) := by
  induction n with
  | zero => exact ⟨fun _ i => i.elim0, fun _ => congrArg Except.ok (funext fun i => i.elim0)⟩
  | succ n ih =>
      rw [tabulateM]
      simp only [bind_ok_iff, Except.ok.injEq, ih, Fin.forall_fin_succ]
      constructor
      · rintro ⟨first, hfirst, rest, hrest, rfl⟩
        exact ⟨hfirst, hrest⟩
      · rintro ⟨hfirst, hrest⟩
        exact ⟨a 0, hfirst, fun i => a i.succ, hrest, Fin.cons_self_tail a⟩

/-- An array raises the errors of its entries. -/
theorem raises_tabulateM {E : ε → Prop} {n : ℕ} {read : Fin n → Except ε α}
    (h : ∀ i, Raises (read i) E) : Raises (tabulateM n read) E := by
  induction n with
  | zero => exact raises_ok _
  | succ n ih =>
      rw [tabulateM]
      exact (h 0).bind fun a _ => (ih fun i => h i.succ).bind fun rest _ => raises_ok _

end AvmSdk.Wire
