import AvmSdk.Alloc.Stack
import AvmSdk.Sdk.Machine
import Mathlib.Data.Option.Basic
import Mathlib.Logic.Function.Basic

/-!
# The guest arena

The bounded storage of a contract module, which hands out at most two blocks in last-in first-out
order.

* `GuestArena.allocate`, `GuestArena.free`, `GuestArena.read`: the operations of the source. The
  fields are atomics behind a shared reference, so an operation returns the arena after it. The
  address of the storage is the parameter `base`.
* `GuestArena.live`: the live blocks, read off the cursor, the count and the two slot arrays.
* `GuestArena.WellStacked`: the invariant between these. `allocate_cases` and `free_cases` say what
  each operation does under it, and that it is kept; `read_eq_some_iff` says what `read` returns.
-/

namespace AvmSdk.Sdk

open Wire Alloc

variable {N : ℕ}

/-- Source: `runtime.rs` `GuestArena` -/
structure GuestArena (N : ℕ) where
  bytes : BytesN N
  next : U32
  allocationStarts : Fin 2 → U32
  allocationLengths : Fin 2 → U32
  allocationCount : U8
  /-- The slots in use exist, so that indexing by the count stays in bounds. -/
  allocationCount_le : allocationCount.toNat ≤ 2

namespace GuestArena

/-- Source: `runtime.rs` `GuestArena::new` -/
def new (N : ℕ) : GuestArena N where
  bytes := zeros N
  next := 0
  allocationStarts := fun _ => 0
  allocationLengths := fun _ => 0
  allocationCount := 0
  allocationCount_le := by decide

/-- Source: `runtime.rs` `GuestArena::base_pointer` -/
def basePointer (base : ℕ) : Option U32 := tryFromUsize 32 base

/-- The first slot that is not in use. -/
def freeSlot (self : GuestArena N) : Option (Fin 2) :=
  if h : self.allocationCount.toNat < 2 then some ⟨self.allocationCount.toNat, h⟩ else none

/-- The last slot in use. -/
def topSlot (self : GuestArena N) : Option (Fin 2) :=
  if 0 < self.allocationCount.toNat then
    some ⟨self.allocationCount.toNat - 1, by
      have := self.allocationCount_le
      omega⟩
  else none

/-- The stores at the end of `allocate`. -/
def push (self : GuestArena N) (slot : Fin 2) (len stop : U32) : GuestArena N :=
  { self with
    allocationStarts := Function.update self.allocationStarts slot self.next
    allocationLengths := Function.update self.allocationLengths slot len
    next := stop
    allocationCount := BitVec.ofNat 8 (slot.val + 1)
    allocationCount_le := by
      rw [BitVec.toNat_ofNat, Nat.mod_eq_of_lt (by omega)]
      omega }

/-- `allocate` where it does not return 0. -/
def tryAllocate (base : ℕ) (self : GuestArena N) (len : U32) : Option (U32 × GuestArena N) := do
  guard (len ≠ 0)
  let slot ← self.freeSlot
  let stop ← wordCheckedAdd self.next len
  let capacity ← tryFromUsize 32 N
  guard (stop ≤ capacity)
  let start ← basePointer base
  let pointer ← wordCheckedAdd start self.next
  guard (pointer ≠ 0)
  pure (pointer, self.push slot len stop)

/-- Source: `runtime.rs` `GuestArena::allocate` -/
def allocate (base : ℕ) (self : GuestArena N) (len : U32) : U32 × GuestArena N :=
  (self.tryAllocate base len).getD (0, self)

/-- The stores at the end of `free`. -/
def pop (self : GuestArena N) (start : U32) (slot : Fin 2) : GuestArena N :=
  { self with
    next := start
    allocationCount := BitVec.ofNat 8 slot.val
    allocationCount_le := by
      rw [BitVec.toNat_ofNat, Nat.mod_eq_of_lt (by omega)]
      omega }

section

variable [Target]

/-- Source: `runtime.rs` `GuestArena::offset` -/
def offset (N base : ℕ) (ptr : U32) : Option U32 := do
  let start ← basePointer base
  (wordCheckedSub ptr start).filter
    (fun offset => (usizeTryFrom offset).any (fun offset => decide (offset < N)))

/-- `free` where it does not return false. -/
def tryFree (base : ℕ) (self : GuestArena N) (ptr len : U32) : Option (GuestArena N) := do
  let start ← offset N base ptr
  let slot ← self.topSlot
  guard (self.allocationStarts slot = start ∧ self.allocationLengths slot = len)
  let stop ← wordCheckedAdd start len
  guard (len ≠ 0 ∧ self.next = stop)
  pure (self.pop start slot)

/-- Source: `runtime.rs` `GuestArena::free` -/
def free (base : ℕ) (self : GuestArena N) (ptr len : U32) : Bool × GuestArena N :=
  match self.tryFree base ptr len with
  | some arena => (true, arena)
  | none => (false, self)

/-- Source: `runtime.rs` `GuestArena::read` -/
def read (base : ℕ) (self : GuestArena N) (ptr len : U32) : Option Bytes := do
  let start ← (offset N base ptr).bind usizeTryFrom
  let length ← usizeTryFrom len
  let stop ← checkedAdd start length
  let next ← usizeTryFrom self.next
  guard (stop ≤ next)
  let source ← getRange self.bytes.val start stop
  -- copied in words of eight bytes, then the bytes that are left
  let (chunks, remainder) := chunksExact 8 source
  pure (chunks.flatten ++ remainder)

end

/-! ## Live blocks -/

/-- The block that a slot describes. -/
def slotBlock (base : ℕ) (self : GuestArena N) (slot : Fin 2) : Block :=
  ⟨base + (self.allocationStarts slot).toNat, (self.allocationLengths slot).toNat⟩

/-- The blocks of the first `n` slots, the last one first. -/
def slotBlocks (base : ℕ) (self : GuestArena N) : (n : ℕ) → n ≤ 2 → List Block
  | 0, _ => []
  | n + 1, h => self.slotBlock base ⟨n, h⟩ :: self.slotBlocks base n (Nat.le_of_succ_le h)

/-- The live blocks, the most recent first. -/
def live (base : ℕ) (self : GuestArena N) : List Block :=
  self.slotBlocks base self.allocationCount.toNat self.allocationCount_le

/-- The bytes of a block. -/
def blockBytes (base : ℕ) (self : GuestArena N) (block : Block) : Bytes :=
  self.bytes.val.extract (block.start - base) (block.stop - base)

/-- The region of an arena. -/
def region (N base : ℕ) : Region := ⟨base, N, 2⟩

/-- **The invariant**: the live blocks are stacked, and the cursor is behind them. -/
structure WellStacked (base : ℕ) (a : GuestArena N) : Prop where
  stacked : Stacked (region N base) (a.live base)
  next_eq : a.next.toNat = used (a.live base)

variable {base : ℕ} {a : GuestArena N}

/-- Every slot holds a block. -/
@[simp] theorem length_slotBlocks {n : ℕ} (h : n ≤ 2) : (a.slotBlocks base n h).length = n := by
  induction n with
  | zero => rfl
  | succ n ih => rw [slotBlocks, List.length_cons, ih]

/-- There are as many live blocks as the count says. -/
@[simp] theorem length_live (base : ℕ) : (a.live base).length = a.allocationCount.toNat :=
  length_slotBlocks _

/-- The blocks of the slots are read off the two slot arrays. -/
theorem slotBlocks_congr (a a' : GuestArena N) (hstarts : a'.allocationStarts = a.allocationStarts)
    (hlengths : a'.allocationLengths = a.allocationLengths) {n : ℕ} (h : n ≤ 2) :
    a'.slotBlocks base n h = a.slotBlocks base n h := by
  induction n with
  | zero => rfl
  | succ n ih => rw [slotBlocks, slotBlocks, slotBlock, slotBlock, hstarts, hlengths, ih]

/-- The slots below the pushed one are as before. -/
theorem slotBlocks_push {slot : Fin 2} {len stop : U32} {n : ℕ} (hn : n ≤ slot.val)
    (hn' : n ≤ 2) : (a.push slot len stop).slotBlocks base n hn' = a.slotBlocks base n hn' := by
  induction n with
  | zero => rfl
  | succ n ih =>
      have hne : (⟨n, hn'⟩ : Fin 2) ≠ slot := by
        rintro rfl
        exact absurd hn (Nat.not_succ_le_self n)
      rw [slotBlocks, slotBlocks, ih (Nat.le_of_succ_le hn)]
      simp only [slotBlock, push, Function.update_of_ne hne]

/-- The live blocks, where the count is known. -/
theorem live_of_count {n : ℕ} (h : a.allocationCount.toNat = n) :
    a.live base = a.slotBlocks base n (h ▸ a.allocationCount_le) := by
  subst h
  rfl

/-- A pushed block is live on top of the others. -/
theorem live_push (base : ℕ) {slot : Fin 2} (len stop : U32) (h : a.allocationCount.toNat = slot.val) :
    (a.push slot len stop).live base = ⟨base + a.next.toNat, len.toNat⟩ :: a.live base := by
  have hcount : (a.push slot len stop).allocationCount.toNat = slot.val + 1 := by
    show (BitVec.ofNat 8 (slot.val + 1)).toNat = _
    rw [BitVec.toNat_ofNat, Nat.mod_eq_of_lt (by omega)]
  rw [live_of_count hcount, live_of_count h, slotBlocks, slotBlocks_push le_rfl]
  simp only [slotBlock, push, Fin.eta, Function.update_self]

/-- The top slot is the most recent live block, and popping it leaves the others. -/
theorem live_pop (base : ℕ) (start : U32) {slot : Fin 2} (h : a.allocationCount.toNat = slot.val + 1) :
    a.live base = a.slotBlock base slot :: (a.pop start slot).live base := by
  have hcount : (a.pop start slot).allocationCount.toNat = slot.val := by
    show (BitVec.ofNat 8 slot.val).toNat = _
    rw [BitVec.toNat_ofNat, Nat.mod_eq_of_lt (by omega)]
  rw [live_of_count hcount, live_of_count h, slotBlocks]
  exact congrArg (List.cons _) (slotBlocks_congr a (a.pop start slot) rfl rfl _).symm

/-- Nothing is live at first. -/
theorem live_new : (new N).live base = [] := rfl

/-- A new arena is well stacked. -/
theorem wellStacked_new : (new N).WellStacked base := ⟨stacked_nil _, rfl⟩

/-! ## What the operations do -/

/-- The free slot is the one behind those in use, -/
theorem freeSlot_eq_some {slot : Fin 2} :
    a.freeSlot = some slot ↔ a.allocationCount.toNat = slot.val := by
  have hslot := slot.isLt
  unfold freeSlot
  split_ifs with h
  · rw [Option.some.injEq, Fin.ext_iff]
  · simp only [false_iff]
    omega

/-- and the top slot the last of these. -/
theorem topSlot_eq_some {slot : Fin 2} :
    a.topSlot = some slot ↔ a.allocationCount.toNat = slot.val + 1 := by
  unfold topSlot
  split_ifs with h
  · rw [Option.some.injEq, Fin.ext_iff]
    show a.allocationCount.toNat - 1 = slot.val ↔ _
    omega
  · simp only [false_iff]
    omega

/-- `allocate` returns a block exactly when the length is not 0, a slot is free, the block ends
inside the storage, and its address is a 32-bit address other than 0. -/
theorem tryAllocate_eq_some_iff {len p : U32} {a' : GuestArena N} :
    a.tryAllocate base len = some (p, a') ↔ ∃ (slot : Fin 2) (stop : U32),
      len ≠ 0 ∧ a.allocationCount.toNat = slot.val ∧ a.next.toNat + len.toNat = stop.toNat ∧
      N < 2 ^ 32 ∧ stop.toNat ≤ N ∧ p.toNat = base + a.next.toNat ∧ p ≠ 0 ∧
      a' = a.push slot len stop := by
  unfold tryAllocate basePointer
  simp only [bind, pure, Option.bind_eq_some_iff, Option.guard_eq_some', tryFromUsize_eq_some,
    wordCheckedAdd_eq_some, Option.some.injEq, exists_const, Prod.mk.injEq, BitVec.le_def,
    freeSlot_eq_some]
  constructor
  · rintro ⟨hlen, slot, hslot, stop, hstop, _, ⟨hN, rfl⟩, hle, _, ⟨hbase, rfl⟩, pointer, hpointer,
      hne, rfl, rfl⟩
    rw [BitVec.toNat_ofNat, Nat.mod_eq_of_lt hN] at hle
    rw [BitVec.toNat_ofNat, Nat.mod_eq_of_lt hbase] at hpointer
    exact ⟨slot, stop, hlen, hslot, hstop, hN, hle, hpointer.symm, hne, rfl⟩
  · rintro ⟨slot, stop, hlen, hslot, hstop, hN, hle, hp, hne, rfl⟩
    have hbase : base < 2 ^ 32 := by
      have := p.isLt
      omega
    refine ⟨hlen, slot, hslot, stop, hstop, _, ⟨hN, rfl⟩, ?_, _, ⟨hbase, rfl⟩, p, ?_, hne, rfl, rfl⟩
    · rwa [BitVec.toNat_ofNat, Nat.mod_eq_of_lt hN]
    · rw [BitVec.toNat_ofNat, Nat.mod_eq_of_lt hbase, hp]

/-- The cursor is behind the topmost block. -/
theorem WellStacked.top_eq (h : a.WellStacked base) :
    top base (a.live base) = base + a.next.toNat := by
  have htop := h.stacked.contiguous.top_eq
  rw [← h.next_eq] at htop
  exact htop

/-- What an allocation has done when it returns an address. -/
structure Allocated (base : ℕ) (a : GuestArena N) (len p : U32) (a' : GuestArena N) : Prop where
  address_eq : p.toNat = top base (a.live base)
  live_eq : a'.live base = ⟨p.toNat, len.toNat⟩ :: a.live base
  bytes_eq : a'.bytes = a.bytes
  wellStacked : a'.WellStacked base

/-- **Allocation** either returns 0 and leaves the arena as it is, or returns the address of a new
block on top. -/
theorem allocate_cases (h : a.WellStacked base) (len : U32) :
    (a.allocate base len = (0, a)) ∨
      ((a.allocate base len).1 ≠ 0 ∧
        Allocated base a len (a.allocate base len).1 (a.allocate base len).2) := by
  unfold allocate
  cases htry : a.tryAllocate base len with
  | none => exact Or.inl rfl
  | some r =>
      obtain ⟨p, a'⟩ := r
      obtain ⟨slot, stop, hlen, hslot, hstop, -, hle, hp, hne, rfl⟩ :=
        tryAllocate_eq_some_iff.mp htry
      have hlive := live_push base len stop hslot
      have htop := h.top_eq
      have hpos : 0 < len.toNat := by
        rw [Nat.pos_iff_ne_zero]
        exact fun h0 => hlen (BitVec.eq_of_toNat_eq h0)
      refine Or.inr ⟨hne, hp.trans htop.symm, hlive.trans (by rw [Option.getD_some, hp]), rfl, ?_, ?_⟩
      · show Stacked (region N base) ((a.push slot len stop).live base)
        rw [hlive, ← htop]
        refine h.stacked.push hpos ?_ ?_
        · rw [length_live, hslot]
          exact slot.isLt
        · rw [← h.next_eq, hstop]
          exact hle
      · show stop.toNat = used ((a.push slot len stop).live base)
        rw [hlive, used_cons, ← h.next_eq, ← hstop, Nat.add_comm]

/-- With 32-bit addresses for the whole storage, an allocation fails only for want of room. -/
theorem allocate_ne_zero_iff (h : a.WellStacked base) (hN : N ≤ 2 ^ 32 - 1) (hbase : 1 ≤ base)
    (hend : base + N ≤ 2 ^ 32) (len : U32) :
    (a.allocate base len).1 ≠ 0 ↔ 0 < len.toNat ∧ (a.live base).length < 2 ∧
      used (a.live base) + len.toNat ≤ N := by
  constructor
  · intro hne
    rcases allocate_cases h len with hzero | ⟨-, hdone⟩
    · rw [hzero] at hne
      exact absurd rfl hne
    · have hstacked := hdone.wellStacked.stacked
      rw [hdone.live_eq] at hstacked
      have hused := hstacked.used_le
      rw [used_cons] at hused
      refine ⟨hstacked.length_pos _ List.mem_cons_self, hstacked.slots_le, ?_⟩
      rw [Nat.add_comm]
      exact hused
  · rintro ⟨hpos, hslots, hroom⟩
    rw [length_live] at hslots
    rw [← h.next_eq] at hroom
    have hstop : (BitVec.ofNat 32 (a.next.toNat + len.toNat)).toNat =
        a.next.toNat + len.toNat := by
      rw [BitVec.toNat_ofNat, Nat.mod_eq_of_lt (by omega)]
    have hp : (BitVec.ofNat 32 (base + a.next.toNat)).toNat = base + a.next.toNat := by
      rw [BitVec.toNat_ofNat, Nat.mod_eq_of_lt (by omega)]
    have hne : BitVec.ofNat 32 (base + a.next.toNat) ≠ 0 := by
      intro h0
      rw [h0] at hp
      have : base + a.next.toNat = 0 := hp.symm
      omega
    have htry := tryAllocate_eq_some_iff.mpr ⟨⟨a.allocationCount.toNat, hslots⟩, _,
      fun h0 => by rw [h0] at hpos; exact absurd hpos (Nat.lt_irrefl 0), rfl, hstop.symm,
      by omega, by rw [hstop]; exact hroom, hp, hne, rfl⟩
    rw [allocate, htry]
    exact hne

section

variable [Target]

/-- An address is an offset into the storage exactly when it is behind the base and inside. -/
theorem offset_eq_some_iff {ptr start : U32} :
    offset N base ptr = some start ↔ ptr.toNat = base + start.toNat ∧ start.toNat < N := by
  unfold offset basePointer
  simp only [bind, Option.bind_eq_some_iff, Option.filter_eq_some_iff, tryFromUsize_eq_some,
    wordCheckedSub_eq_some, usizeTryFrom_eq, Option.any_some, decide_eq_true_eq]
  constructor
  · rintro ⟨_, ⟨hbase, rfl⟩, hptr, hlt⟩
    rw [BitVec.toNat_ofNat, Nat.mod_eq_of_lt hbase] at hptr
    exact ⟨hptr, hlt⟩
  · rintro ⟨hptr, hlt⟩
    have hbase : base < 2 ^ 32 := by
      have := ptr.isLt
      omega
    refine ⟨_, ⟨hbase, rfl⟩, ?_, hlt⟩
    rw [BitVec.toNat_ofNat, Nat.mod_eq_of_lt hbase, hptr]

/-- `free` succeeds exactly when the top slot describes the block and the block ends at the
cursor. -/
theorem tryFree_eq_some_iff {ptr len : U32} {a' : GuestArena N} :
    a.tryFree base ptr len = some a' ↔ ∃ (slot : Fin 2) (start : U32),
      ptr.toNat = base + start.toNat ∧ start.toNat < N ∧ a.allocationCount.toNat = slot.val + 1 ∧
      a.allocationStarts slot = start ∧ a.allocationLengths slot = len ∧ len ≠ 0 ∧
      start.toNat + len.toNat = a.next.toNat ∧ a' = a.pop start slot := by
  unfold tryFree
  simp only [bind, pure, Option.bind_eq_some_iff, Option.guard_eq_some', wordCheckedAdd_eq_some,
    Option.some.injEq, exists_const, topSlot_eq_some, offset_eq_some_iff]
  constructor
  · rintro ⟨start, ⟨hptr, hlt⟩, slot, hslot, ⟨hstart, hlength⟩, stop, hstop, ⟨hlen, rfl⟩, rfl⟩
    exact ⟨slot, start, hptr, hlt, hslot, hstart, hlength, hlen, hstop, rfl⟩
  · rintro ⟨slot, start, hptr, hlt, hslot, hstart, hlength, hlen, hstop, rfl⟩
    exact ⟨start, ⟨hptr, hlt⟩, slot, hslot, ⟨hstart, hlength⟩, a.next, hstop, ⟨hlen, rfl⟩, rfl⟩

/-- The most recent block of a well-stacked arena is the one that `free` looks for. -/
theorem WellStacked.tryFree_of_head (h : a.WellStacked base) {ptr len : U32} {blocks : List Block}
    (hlive : a.live base = ⟨ptr.toNat, len.toNat⟩ :: blocks) :
    ∃ a', a.tryFree base ptr len = some a' := by
  have hcount := length_live (a := a) base
  rw [hlive, List.length_cons] at hcount
  have hstacked := h.stacked
  have hnext := h.next_eq
  have hused := hstacked.used_le
  have hle := a.allocationCount_le
  rw [hlive] at hstacked hnext hused
  rw [used_cons] at hnext hused
  have hstart : ptr.toNat = base + used blocks :=
    hstacked.contiguous.1.trans hstacked.contiguous.2.top_eq
  have hpos : 0 < len.toNat := hstacked.length_pos _ List.mem_cons_self
  have hroom : len.toNat + used blocks ≤ N := hused
  have hcursor : a.next.toNat = len.toNat + used blocks := hnext
  have hcount' : a.allocationCount.toNat = (⟨blocks.length, by omega⟩ : Fin 2).val + 1 :=
    hcount.symm
  -- the block is the one of the top slot
  have htop := live_pop base a.next hcount'
  rw [hlive] at htop
  obtain ⟨hslot, -⟩ := List.cons.inj htop
  obtain ⟨hptr, hlength⟩ := Block.mk.inj hslot
  refine ⟨_, tryFree_eq_some_iff.mpr ⟨⟨blocks.length, by omega⟩, _, hptr, ?_, hcount', rfl,
    BitVec.eq_of_toNat_eq hlength.symm, ?_, ?_, rfl⟩⟩
  · omega
  · rintro rfl
    exact absurd hpos (Nat.lt_irrefl 0)
  · omega

/-- **Freeing** either returns false and leaves the arena as it is, when the block is not the most
recent live one, or removes this block. -/
theorem free_cases (h : a.WellStacked base) (ptr len : U32) :
    (a.free base ptr len = (false, a) ∧ (a.live base).head? ≠ some ⟨ptr.toNat, len.toNat⟩) ∨
      ((a.free base ptr len).1 = true ∧
        a.live base = ⟨ptr.toNat, len.toNat⟩ :: (a.free base ptr len).2.live base ∧
        (a.free base ptr len).2.bytes = a.bytes ∧ (a.free base ptr len).2.WellStacked base) := by
  unfold free
  cases htry : a.tryFree base ptr len with
  | none =>
      refine Or.inl ⟨rfl, fun hhead => ?_⟩
      obtain ⟨blocks, hlive⟩ := List.head?_eq_some_iff.mp hhead
      obtain ⟨a', ha'⟩ := h.tryFree_of_head hlive
      rw [htry] at ha'
      cases ha'
  | some a' =>
      obtain ⟨slot, start, hptr, -, hslot, rfl, rfl, -, -, rfl⟩ := tryFree_eq_some_iff.mp htry
      have hlive := live_pop base (a.allocationStarts slot) hslot
      have hblock : a.slotBlock base slot = ⟨ptr.toNat, (a.allocationLengths slot).toNat⟩ := by
        rw [slotBlock, hptr]
      have hstacked := h.stacked
      rw [hlive] at hstacked
      refine Or.inr ⟨rfl, by rw [← hblock]; exact hlive, rfl, hstacked.pop, ?_⟩
      have hstart : base + (a.allocationStarts slot).toNat = base + used _ :=
        hstacked.contiguous.1.trans hstacked.contiguous.2.top_eq
      exact Nat.add_left_cancel hstart

/-- `read` returns the bytes of a range that is inside the arena and does not pass the cursor. -/
theorem read_eq_some_iff {ptr len : U32} {bytes : Bytes} :
    a.read base ptr len = some bytes ↔ base ≤ ptr.toNat ∧ ptr.toNat - base < N ∧
      ptr.toNat - base + len.toNat ≤ a.next.toNat ∧ ptr.toNat - base + len.toNat ≤ N ∧
      bytes = a.blockBytes base ⟨ptr.toNat, len.toNat⟩ := by
  have hmax := Target.u32_le_usizeMax
  have hnext := a.next.isLt
  have hptr := ptr.isLt
  have hsize := a.bytes.property
  unfold read
  simp only [bind, pure, Option.bind_eq_some_iff, offset_eq_some_iff, usizeTryFrom_eq,
    Option.some.injEq, Option.guard_eq_some', exists_const, checkedAdd_eq_some, getRange_eq_some,
    flatten_chunksExact]
  constructor
  · rintro ⟨_, ⟨start, ⟨hstart, hlt⟩, rfl⟩, _, rfl, _, ⟨-, rfl⟩, _, rfl, hle, source,
      ⟨⟨-, hstop⟩, rfl⟩, rfl⟩
    have hsub : ptr.toNat - base = start.toNat := by omega
    have hend : ptr.toNat + len.toNat - base = start.toNat + len.toNat := by omega
    rw [hsub]
    refine ⟨by omega, hlt, hle, by omega, ?_⟩
    show _ = a.bytes.val.extract (ptr.toNat - base) (ptr.toNat + len.toNat - base)
    rw [hsub, hend]
  · rintro ⟨hbase, hlt, hle, hstop, rfl⟩
    have hstart : (BitVec.ofNat 32 (ptr.toNat - base)).toNat = ptr.toNat - base := by
      rw [BitVec.toNat_ofNat, Nat.mod_eq_of_lt (by omega)]
    have hend : ptr.toNat + len.toNat - base = ptr.toNat - base + len.toNat := by omega
    refine ⟨_, ⟨BitVec.ofNat 32 (ptr.toNat - base), ⟨?_, ?_⟩, hstart⟩, _, rfl, _,
      ⟨?_, rfl⟩, _, rfl, hle, _, ⟨⟨?_, ?_⟩, rfl⟩, ?_⟩
    · omega
    · omega
    · omega
    · omega
    · omega
    · show a.bytes.val.extract _ _ = a.bytes.val.extract _ (ptr.toNat + len.toNat - base)
      rw [hend]

end

end GuestArena

end AvmSdk.Sdk
