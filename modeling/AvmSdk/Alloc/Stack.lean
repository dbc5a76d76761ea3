import AvmSdk.Alloc.Machine
import Mathlib.Algebra.BigOperators.Group.List.Basic
import Mathlib.Algebra.GroupWithZero.Nat

/-!
# A bounded stack allocator

An allocator over a region of addresses that hands out blocks one behind the other and takes them
back in the reverse order. Its state is the list of live blocks, the most recent first.

* `allocate`, `free`, and `step` for either call.
* `Stacked`: the blocks are not empty, stand one behind the other from the base without a gap, and
  exceed neither the region nor the number of blocks. It holds of no blocks (`stacked_nil`), and
  `Stacked.push` and `Stacked.pop` keep it.
* `Stacked.pairwise_disjoint`, `Stacked.inside`: what follows for the blocks.
-/

namespace AvmSdk.Alloc

/-- A block of addresses. -/
structure Block where
  start : ℕ
  length : ℕ
deriving DecidableEq

/-- The first address behind a block. -/
def Block.stop (b : Block) : ℕ := b.start + b.length

/-- The region of an allocator, and how many blocks may be live. -/
structure Region where
  base : ℕ
  capacity : ℕ
  slots : ℕ

/-- The number of addresses in live blocks. -/
def used (blocks : List Block) : ℕ := (blocks.map Block.length).sum

/-- The first address behind the most recent block, or the base. -/
def top (base : ℕ) : List Block → ℕ
  | [] => base
  | b :: _ => b.stop

/-- Allocate a block of the given length, if it is not empty and there is room. -/
def allocate (region : Region) (length : ℕ) (blocks : List Block) : Option ℕ × List Block :=
  if 0 < length ∧ blocks.length < region.slots ∧ used blocks + length ≤ region.capacity then
    (some (top region.base blocks), ⟨top region.base blocks, length⟩ :: blocks)
  else (none, blocks)

/-- Free a block, if it is the most recent one. -/
def free (block : Block) : List Block → Bool × List Block
  | [] => (false, [])
  | b :: blocks => if b = block then (true, blocks) else (false, b :: blocks)

/-- A call of the allocator. -/
inductive Call
  | allocate (length : ℕ)
  | free (block : Block)

/-- The reply to a call: the address of the block, if any, or whether the block was freed. -/
inductive Reply
  | address (start : Option ℕ)
  | freed (done : Bool)

/-- The allocator as a machine. -/
def step (region : Region) : Call → List Block → Reply × List Block
  | .allocate length, blocks =>
      let (start, blocks') := allocate region length blocks
      (.address start, blocks')
  | .free block, blocks =>
      let (done, blocks') := free block blocks
      (.freed done, blocks')

/-- A block that fits is put on top, -/
theorem allocate_of_room {region : Region} {length : ℕ} {blocks : List Block}
    (h : 0 < length ∧ blocks.length < region.slots ∧ used blocks + length ≤ region.capacity) :
    allocate region length blocks =
      (some (top region.base blocks), ⟨top region.base blocks, length⟩ :: blocks) := if_pos h

/-- and one that does not fit changes nothing. -/
theorem allocate_of_no_room {region : Region} {length : ℕ} {blocks : List Block}
    (h : ¬ (0 < length ∧ blocks.length < region.slots ∧
      used blocks + length ≤ region.capacity)) :
    allocate region length blocks = (none, blocks) := if_neg h

/-- The block on top can be freed, -/
theorem free_head (block : Block) (blocks : List Block) :
    free block (block :: blocks) = (true, blocks) := if_pos rfl

/-- and no other one. -/
theorem free_of_not_head {block : Block} {blocks : List Block}
    (h : blocks.head? ≠ some block) : free block blocks = (false, blocks) := by
  cases blocks with
  | nil => rfl
  | cons b blocks => exact if_neg fun hb => h (congrArg some hb)

/-! ## The layout -/

/-- Each block begins where the one before it ends, the first at the base. -/
def Contiguous (base : ℕ) : List Block → Prop
  | [] => True
  | b :: blocks => b.start = top base blocks ∧ Contiguous base blocks

/-- The states that the allocator can be in. -/
structure Stacked (region : Region) (blocks : List Block) : Prop where
  slots_le : blocks.length ≤ region.slots
  used_le : used blocks ≤ region.capacity
  length_pos : ∀ b ∈ blocks, 0 < b.length
  contiguous : Contiguous region.base blocks

/-- What one more block takes. -/
@[simp] theorem used_cons (b : Block) (blocks : List Block) :
    used (b :: blocks) = b.length + used blocks := rfl

variable {region : Region} {blocks : List Block}

/-- The top is the base plus what is in use. -/
theorem Contiguous.top_eq {base : ℕ} (h : Contiguous base blocks) :
    top base blocks = base + used blocks := by
  induction blocks with
  | nil => rfl
  | cons b blocks ih =>
      obtain ⟨hstart, htail⟩ := h
      rw [top, Block.stop, hstart, ih htail, used_cons]
      omega

/-- Every block stands between the base and the top. -/
theorem Contiguous.base_le {base : ℕ} (h : Contiguous base blocks) {b : Block} (hb : b ∈ blocks) :
    base ≤ b.start ∧ b.stop ≤ top base blocks := by
  induction blocks with
  | nil => cases hb
  | cons c blocks ih =>
      obtain ⟨hstart, htail⟩ := h
      have htop := htail.top_eq
      rcases List.mem_cons.mp hb with rfl | hmem
      · exact ⟨by omega, Nat.le_refl _⟩
      · obtain ⟨hbase, hstop⟩ := ih htail hmem
        refine ⟨hbase, Nat.le_trans hstop ?_⟩
        show top base blocks ≤ c.start + c.length
        omega

/-- A more recent block stands behind an older one. -/
theorem Contiguous.pairwise {base : ℕ} (h : Contiguous base blocks) :
    blocks.Pairwise (fun b c => c.stop ≤ b.start) := by
  induction blocks with
  | nil => exact .nil
  | cons b blocks ih =>
      obtain ⟨hstart, htail⟩ := h
      refine List.pairwise_cons.mpr ⟨fun c hc => ?_, ih htail⟩
      rw [hstart]
      exact (htail.base_le hc).2

/-- Two blocks without a common address. -/
def Block.Disjoint (b c : Block) : Prop := c.stop ≤ b.start ∨ b.stop ≤ c.start

/-- Live blocks are disjoint. -/
theorem Stacked.pairwise_disjoint (h : Stacked region blocks) : blocks.Pairwise Block.Disjoint :=
  h.contiguous.pairwise.imp Or.inl

/-- Live blocks are inside the region. -/
theorem Stacked.inside (h : Stacked region blocks) {b : Block} (hb : b ∈ blocks) :
    region.base ≤ b.start ∧ b.stop ≤ region.base + region.capacity := by
  obtain ⟨hbase, hstop⟩ := h.contiguous.base_le hb
  have htop := h.contiguous.top_eq
  have hused := h.used_le
  exact ⟨hbase, by omega⟩

/-! ## The layout is kept -/

/-- No blocks are stacked. -/
theorem stacked_nil (region : Region) : Stacked region [] :=
  ⟨Nat.zero_le _, Nat.zero_le _, nofun, trivial⟩

/-- A new block on top. -/
theorem Stacked.push (h : Stacked region blocks) {length : ℕ} (hpos : 0 < length)
    (hslots : blocks.length < region.slots) (hroom : used blocks + length ≤ region.capacity) :
    Stacked region (⟨top region.base blocks, length⟩ :: blocks) where
  slots_le := hslots
  used_le := by
    rw [used_cons, Nat.add_comm]
    exact hroom
  length_pos := List.forall_mem_cons.mpr ⟨hpos, h.length_pos⟩
  contiguous := ⟨rfl, h.contiguous⟩

/-- Without the most recent block. -/
theorem Stacked.pop {b : Block} (h : Stacked region (b :: blocks)) : Stacked region blocks where
  slots_le := Nat.le_trans (Nat.le_succ _) h.slots_le
  used_le := Nat.le_trans (Nat.le_add_left _ b.length) h.used_le
  length_pos c hc := h.length_pos c (List.mem_cons_of_mem b hc)
  contiguous := h.contiguous.2

end AvmSdk.Alloc
