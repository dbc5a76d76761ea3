import AvmSdk.Sdk.Runtime.Dispatch
import Mathlib.Data.List.FinRange

/-!
# Reading the arena, load by load

The bytes of the arena are atomic cells. `read` copies a range of them with one load a byte, eight
in a row and then the ones that are left.

* `readLoads`: the copy with its loads, on the state of the arena. `readLoads_eq` says that it
  returns what `read` returns, and leaves the arena as it is.
* `read_live_range`: after any sequence of calls, `read` returns exactly the ranges that begin in
  the arena and end at the cursor or before it, byte for byte.
-/

namespace AvmSdk.Sdk

open Wire Alloc

variable {N : ℕ}

/-- A step that leaves the state, and another one behind it. -/
theorem bind_of_leaves {σ α β : Type} {x : StateM σ α} {s : σ} {a : α} (hx : x s = (a, s))
    (f : α → StateM σ β) : (x >>= f) s = f a s := by
  show StateT.bind x f s = f a s
  rw [StateT.bind, hx]
  rfl

/-- Steps that return something of the state, and leave it, one after another. -/
theorem mapM_of_leaves {σ α β : Type} {f : α → StateM σ β} {g : α → β} {s : σ}
    (h : ∀ a, f a s = (g a, s)) (as : List α) : as.mapM f s = (as.map g, s) := by
  induction as with
  | nil => rfl
  | cons a as ih =>
      rw [List.mapM_cons, bind_of_leaves (h a), bind_of_leaves ih]
      rfl

/-- A range of a list that is computed item by item. -/
theorem getRange_map {α β : Type} (f : α → β) (xs : List α) (start stop : ℕ) :
    getRange (xs.map f) start stop = (getRange xs start stop).map (List.map f) := by
  unfold getRange
  rw [List.length_map]
  split_ifs with h
  · rw [Option.map_some, List.extract_eq_take_drop, List.extract_eq_take_drop, List.map_take,
      List.map_drop]
  · rfl

namespace GuestArena

/-- The byte in a cell. -/
def byteOf (self : GuestArena N) (cell : Fin N) : U8 :=
  self.bytes.val.get (cell.cast self.bytes.property.symm)

/-- `AtomicU8::load`. -/
def loadByte (cell : Fin N) : StateM (GuestArena N) U8 := fun self => (self.byteOf cell, self)

/-- The copy of a range of cells: the chunks of eight, and then the remainder. -/
def copyCells (source : List (Fin N)) : StateM (GuestArena N) Bytes := do
  let (chunks, remainder) := chunksExact 8 source
  let words ← chunks.mapM (fun chunk => chunk.mapM loadByte)
  let rest ← remainder.mapM loadByte
  pure (words.flatten ++ rest)

section

variable [Target]

/-- The range of cells that is read, if it passes the checks. -/
def sourceCells (base : ℕ) (self : GuestArena N) (ptr len : U32) : Option (List (Fin N)) := do
  let start ← (offset N base ptr).bind usizeTryFrom
  let length ← usizeTryFrom len
  let stop ← checkedAdd start length
  let next ← usizeTryFrom self.next
  guard (stop ≤ next)
  getRange (List.finRange N) start stop

/-- Source: `runtime.rs` `GuestArena::read` -/
def readLoads (base : ℕ) (ptr len : U32) : StateM (GuestArena N) (Option Bytes) := do
  let self ← get
  match self.sourceCells base ptr len with
  | none => pure none
  | some source => some <$> copyCells source

end

variable {base : ℕ} {a : GuestArena N}

/-- The cells in order hold the bytes. -/
theorem map_byteOf_finRange (a : GuestArena N) : (List.finRange N).map a.byteOf = a.bytes.val := by
  apply List.ext_getElem
  · rw [List.length_map, List.length_finRange, a.bytes.property]
  · intro i hi hi'
    rw [List.getElem_map, List.getElem_finRange]
    rfl

/-- Copying cells returns their bytes, in order, and leaves the arena. -/
theorem copyCells_eq (a : GuestArena N) (source : List (Fin N)) :
    copyCells source a = (source.map a.byteOf, a) := by
  have hload : ∀ cell, loadByte cell a = (a.byteOf cell, a) := fun _ => rfl
  unfold copyCells
  dsimp only
  rw [bind_of_leaves (mapM_of_leaves (fun chunk => mapM_of_leaves hload chunk) _),
    bind_of_leaves (mapM_of_leaves hload _)]
  show ((_ : Bytes), a) = _
  rw [← List.map_flatten, ← List.map_append, flatten_chunksExact]

/-- The cursor stays inside the storage. -/
theorem WellStacked.next_le (h : a.WellStacked base) : a.next.toNat ≤ N := by
  rw [h.next_eq]
  exact h.stacked.used_le

section

variable [Target]

/-- What is read are the bytes of the cells. -/
theorem read_eq_sourceCells (a : GuestArena N) (ptr len : U32) :
    a.read base ptr len = (a.sourceCells base ptr len).map (List.map a.byteOf) := by
  unfold read sourceCells
  simp only [flatten_chunksExact, bind, pure, Option.map_bind, Function.comp_def,
    ← map_byteOf_finRange, getRange_map, Option.bind_fun_some]

/-- **With its loads**, `read` returns what it returns and leaves the arena. -/
theorem readLoads_eq (a : GuestArena N) (ptr len : U32) :
    readLoads base ptr len a = (a.read base ptr len, a) := by
  rw [read_eq_sourceCells]
  have hget : (get : StateM (GuestArena N) (GuestArena N)) a = (a, a) := rfl
  unfold readLoads
  rw [bind_of_leaves hget]
  cases a.sourceCells base ptr len with
  | none => rfl
  | some source =>
      show (some <$> copyCells source) a = _
      rw [map_eq_pure_bind, bind_of_leaves (copyCells_eq a source)]
      rfl

/-- Under the invariant, the ranges that can be read end at the cursor or before it. -/
theorem WellStacked.isSome_read_iff (h : a.WellStacked base) (ptr len : U32) :
    (a.read base ptr len).isSome = true ↔ base ≤ ptr.toNat ∧ ptr.toNat < base + N ∧
      ptr.toNat - base + len.toNat ≤ a.next.toNat := by
  have hnext := h.next_le
  rw [Option.isSome_iff_exists]
  simp only [read_eq_some_iff]
  constructor
  · rintro ⟨_, hbase, hlt, hlive, -, -⟩
    exact ⟨hbase, by omega, hlive⟩
  · rintro ⟨hbase, hlt, hlive⟩
    exact ⟨_, hbase, by omega, hlive, by omega, rfl⟩

/-- What is read has the length that was asked for, and is the arena's bytes from the offset on. -/
theorem read_bytes {ptr len : U32} {bytes : Bytes} (h : a.read base ptr len = some bytes) :
    bytes.length = len.toNat ∧
      ∀ i, i < len.toNat → bytes[i]? = a.bytes.val[ptr.toNat - base + i]? := by
  obtain ⟨hbase, -, -, hstop, rfl⟩ := read_eq_some_iff.mp h
  have hblock : a.blockBytes base ⟨ptr.toNat, len.toNat⟩ =
      (a.bytes.val.drop (ptr.toNat - base)).take len.toNat := by
    have hwidth : ptr.toNat + len.toNat - base - (ptr.toNat - base) = len.toNat := by omega
    show a.bytes.val.extract (ptr.toNat - base) (ptr.toNat + len.toNat - base) = _
    rw [List.extract_eq_take_drop, hwidth]
  have hbytes := a.bytes.property
  rw [hblock]
  constructor
  · rw [List.length_take, List.length_drop]
    omega
  · intro i hi
    rw [List.getElem?_take_of_lt hi, List.getElem?_drop]

end

end GuestArena

/-- **What the arena hands out.** In an arena of any capacity at any address, after any sequence of
calls, `read` returns bytes exactly when the address is in the arena and the range ends at the
cursor or before it. These are as many as asked for, and are those of the arena from the offset on.
With its loads, eight in a row and then the rest, it returns the same and changes nothing. -/
theorem read_live_range [Target] (N base : ℕ) (calls : List (HostCall N)) (ptr len : U32) :
    letI a := GuestArena.served N base calls
    ((a.read base ptr len).isSome = true ↔ base ≤ ptr.toNat ∧ ptr.toNat < base + N ∧
      ptr.toNat - base + len.toNat ≤ a.next.toNat) ∧
    (∀ bytes, a.read base ptr len = some bytes → bytes.length = len.toNat ∧
      ∀ i, i < len.toNat → bytes[i]? = a.bytes.val[ptr.toNat - base + i]?) ∧
    GuestArena.readLoads base ptr len a = (a.read base ptr len, a) :=
  ⟨(GuestArena.wellStacked_served N base calls).isSome_read_iff ptr len,
    fun _ h => GuestArena.read_bytes h, GuestArena.readLoads_eq _ ptr len⟩

end AvmSdk.Sdk
