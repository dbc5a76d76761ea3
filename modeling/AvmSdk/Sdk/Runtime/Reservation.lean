import AvmSdk.Sdk.Runtime.Arena
import AvmSdk.Sdk.Runtime.Writer

/-!
# Reserving room for an output

`write_output` reserves a block for an output of known size, serializes into it, and gives the block
back when the serializer fails or does not fill it.

* `GuestArena.Undisturbed`: the live blocks, the cursor and all bytes before the cursor are as
  before. `GuestArena.Delivered`: a new block on top holds a byte string, and all bytes before it
  are as before.
* `writeOutput_cases`: the result is 0 and the arena is undisturbed, or the result is the address
  and the length of a delivered block.
-/

namespace AvmSdk.Sdk

open Wire Alloc

variable {N : ℕ}

/-- The result of an entry point: `(u64::from(ptr) << 32) | u64::from(len)`. -/
def packResult (ptr len : U32) : U64 := (ptr.setWidth 64 <<< 32) ||| len.setWidth 64

/-- A result is an address and a length. -/
theorem toNat_packResult (ptr len : U32) :
    (packResult ptr len).toNat = ptr.toNat * 2 ^ 32 + len.toNat := by
  have hptr := ptr.isLt
  have hlen := len.isLt
  rw [packResult, BitVec.toNat_or, BitVec.toNat_shiftLeft, BitVec.toNat_setWidth,
    BitVec.toNat_setWidth, Nat.mod_eq_of_lt (a := ptr.toNat) (by omega),
    Nat.mod_eq_of_lt (a := len.toNat) (by omega), Nat.mod_eq_of_lt (by
      rw [Nat.shiftLeft_eq]
      omega), ← Nat.shiftLeft_add_eq_or_of_lt hlen, Nat.shiftLeft_eq]

/-- A result with an address is not 0. -/
theorem packResult_ne_zero {ptr len : U32} (h : ptr ≠ 0) : packResult ptr len ≠ 0 := by
  intro hzero
  have hnat := toNat_packResult ptr len
  have h0 : (0 : U64).toNat = 0 := rfl
  rw [hzero] at hnat
  have hptr : ptr.toNat = 0 := by omega
  exact h (BitVec.eq_of_toNat_eq hptr)

/-- The address of a result, `(packed >> 32) as u32`. -/
def resultPtr (value : U64) : U32 := (value >>> 32).setWidth 32

/-- The length of a result, `packed as u32`. -/
def resultLen (value : U64) : U32 := value.setWidth 32

/-- The pointer of a packed result, -/
@[simp] theorem resultPtr_packResult (ptr len : U32) : resultPtr (packResult ptr len) = ptr := by
  apply BitVec.eq_of_toNat_eq
  have hptr := ptr.isLt
  have hlen := len.isLt
  rw [resultPtr, BitVec.toNat_setWidth, BitVec.toNat_ushiftRight, toNat_packResult,
    Nat.shiftRight_eq_div_pow]
  omega

/-- and its length. -/
@[simp] theorem resultLen_packResult (ptr len : U32) : resultLen (packResult ptr len) = len := by
  apply BitVec.eq_of_toNat_eq
  have hlen := len.isLt
  rw [resultLen, BitVec.toNat_setWidth, toNat_packResult]
  omega

namespace GuestArena

/-- The arena with other bytes. -/
def store (self : GuestArena N) (bytes : BytesN N) : GuestArena N := { self with bytes := bytes }

/-- A writer for a range of the arena, `self.bytes.get(start..stop)`. -/
def destination (self : GuestArena N) (start stop : ℕ) : Option (ArenaWriter N) :=
  if h : start ≤ stop ∧ stop ≤ N then some ⟨self.bytes, start, stop, h.1, h.2⟩ else none

section

variable [Target]

/-- Source: `runtime.rs` `GuestArena::write_output` -/
def writeOutput (base : ℕ) (self : GuestArena N) (length : ℕ)
    (encode : WriteM EncodeError (ArenaWriter N) Unit) : U64 × GuestArena N :=
  match tryFromUsize 32 length with
  | none => (0, self)
  | some len =>
      let (ptr, self) := self.allocate base len
      if ptr = 0 then (0, self)
      else
        match (offset N base ptr).bind usizeTryFrom with
        -- the source does not free the block here
        | none => (0, self)
        | some start =>
            match self.destination start (saturatingAdd start length) with
            | none => (0, (self.free base ptr len).2)
            | some writer =>
                let (result, writer) := encode writer
                let self := self.store writer.bytes
                if result.isOk = false ∨ writer.room ≠ 0 then (0, (self.free base ptr len).2)
                else (packResult ptr len, self)

end

variable {base : ℕ} {a a' : GuestArena N}

/-- Bytes in the arena do not change what is live. -/
@[simp] theorem live_store (bytes : BytesN N) : (a.store bytes).live base = a.live base :=
  slotBlocks_congr a (a.store bytes) rfl rfl _

/-- The invariant does not depend on the bytes. -/
theorem WellStacked.store (h : a.WellStacked base) (bytes : BytesN N) :
    (a.store bytes).WellStacked base where
  stacked := by
    rw [live_store]
    exact h.stacked
  next_eq := by
    rw [live_store]
    exact h.next_eq

/-! ## What a reservation may change -/

/-- The live blocks, the cursor and the bytes before the cursor are as before. -/
structure Undisturbed (base : ℕ) (a a' : GuestArena N) : Prop where
  live_eq : a'.live base = a.live base
  next_eq : a'.next = a.next
  sameBytes : SameOutside a.next.toNat N a.bytes.val a'.bytes.val

/-- A new block on top holds a byte string, and the bytes before it are as before. -/
structure Delivered (base : ℕ) (a : GuestArena N) (bytes : Bytes) (ptr len : U32)
    (a' : GuestArena N) : Prop where
  ptr_eq : ptr.toNat = base + a.next.toNat
  ptr_ne_zero : ptr ≠ 0
  len_pos : 0 < len.toNat
  fits : a.next.toNat + len.toNat ≤ N
  live_eq : a'.live base = ⟨ptr.toNat, len.toNat⟩ :: a.live base
  next_eq : a'.next.toNat = a.next.toNat + len.toNat
  bytes_eq : a'.blockBytes base ⟨ptr.toNat, len.toNat⟩ = bytes
  sameBytes : SameOutside a.next.toNat N a.bytes.val a'.bytes.val

/-- Nothing is disturbed by doing nothing. -/
theorem Undisturbed.refl (base : ℕ) (a : GuestArena N) : Undisturbed base a a :=
  ⟨rfl, rfl, .refl _ _ _⟩

/-- What is undisturbed stays well stacked, -/
theorem Undisturbed.wellStacked (h : Undisturbed base a a') (ha : a.WellStacked base) :
    a'.WellStacked base where
  stacked := by
    rw [h.live_eq]
    exact ha.stacked
  next_eq := by
    rw [h.live_eq, h.next_eq]
    exact ha.next_eq

/-- and so it does behind an output. -/
theorem Delivered.wellStacked {bytes : Bytes} {ptr len : U32}
    (h : Delivered base a bytes ptr len a') (ha : a.WellStacked base) : a'.WellStacked base where
  stacked := by
    have hslots := a'.allocationCount_le
    rw [← length_live base, h.live_eq, List.length_cons] at hslots
    rw [h.live_eq, h.ptr_eq, ← ha.top_eq]
    refine ha.stacked.push h.len_pos hslots ?_
    rw [← ha.next_eq]
    exact h.fits
  next_eq := by
    rw [h.live_eq, used_cons, h.next_eq, ha.next_eq, Nat.add_comm]

/-- Live blocks are before the cursor. -/
theorem WellStacked.stop_le (h : a.WellStacked base) {block : Block} (hb : block ∈ a.live base) :
    block.stop - base ≤ a.next.toNat := by
  have hstop := (h.stacked.contiguous.base_le hb).2
  have htop := h.top_eq
  have hregion : (region N base).base = base := rfl
  rw [hregion, htop] at hstop
  omega

/-- What leaves the bytes before the cursor leaves the bytes of the live blocks. -/
theorem WellStacked.blockBytes_eq (h : a.WellStacked base)
    (hsame : SameOutside a.next.toNat N a.bytes.val a'.bytes.val) {block : Block}
    (hb : block ∈ a.live base) : a'.blockBytes base block = a.blockBytes base block :=
  hsame.extract_eq (Or.inl (h.stop_le hb))

section

variable [Target]

/-! ## What a reservation does -/

/-- A block that was just allocated can be given back, whatever was stored in it. -/
theorem undisturbed_free {len p : U32} {bytes : BytesN N}
    (h : a.tryAllocate base len = some (p, a'))
    (hsame : SameOutside a.next.toNat N a.bytes.val bytes.val) :
    Undisturbed base a ((a'.store bytes).free base p len).2 := by
  obtain ⟨slot, stop, hlen, hslot, hstop, -, hle, hp, -, rfl⟩ := tryAllocate_eq_some_iff.mp h
  have hpos : 0 < len.toNat := Nat.pos_of_ne_zero fun h0 => hlen (BitVec.eq_of_toNat_eq h0)
  have hcount : ((a.push slot len stop).store bytes).allocationCount.toNat = slot.val + 1 := by
    show (BitVec.ofNat 8 (slot.val + 1)).toNat = _
    rw [BitVec.toNat_ofNat, Nat.mod_eq_of_lt (by omega)]
  have hfree : ((a.push slot len stop).store bytes).tryFree base p len =
      some (((a.push slot len stop).store bytes).pop a.next slot) :=
    tryFree_eq_some_iff.mpr ⟨slot, a.next, hp, by omega, hcount, Function.update_self ..,
      Function.update_self .., hlen, hstop, rfl⟩
  have hpop := live_pop base a.next hcount
  rw [live_store, live_push base len stop hslot] at hpop
  rw [free, hfree]
  exact ⟨(List.cons.inj hpop).2.symm, rfl, hsame⟩

omit [Target] in
/-- A block that was just allocated, once its range has been filled. -/
theorem delivered_store {len p : U32} {w : Bytes} {writer : ArenaWriter N}
    (h : a.tryAllocate base len = some (p, a')) (hlen : w.length = len.toNat)
    (hbytes : writer.bytes = a.bytes) (hstart : writer.start = a.next.toNat)
    (hfit : w.length ≤ writer.room) :
    Delivered base a w p len (a'.store (writer.store w hfit).bytes) := by
  obtain ⟨slot, stop, hne, hslot, hstop, -, hle, hp, hp', rfl⟩ := tryAllocate_eq_some_iff.mp h
  have hpos : 0 < len.toNat := Nat.pos_of_ne_zero fun h0 => hne (BitVec.eq_of_toNat_eq h0)
  have hsize := a.bytes.property
  refine ⟨hp, hp', hpos, by omega, ?_, hstop.symm, ?_, ?_⟩
  · rw [live_store, live_push base len stop hslot, hp]
  · have hend : base + a.next.toNat + len.toNat - base = a.next.toNat + w.length := by omega
    show (patch writer.bytes.val writer.start w).extract (p.toNat - base)
      (p.toNat + len.toNat - base) = w
    rw [hp, hend, Nat.add_sub_cancel_left, hbytes, hstart]
    exact extract_patch (by omega)
  · show SameOutside _ _ _ (patch writer.bytes.val writer.start w)
    rw [hbytes, hstart]
    exact (sameOutside_patch (by omega)).mono le_rfl (by omega)

/-- Without room for a block, nothing happens. -/
theorem writeOutput_of_none {encode : WriteM EncodeError (ArenaWriter N) Unit} {length : ℕ}
    (h : ∀ len : U32, len.toNat = length → a.tryAllocate base len = none) :
    a.writeOutput base length encode = (0, a) := by
  unfold writeOutput
  cases hlength : tryFromUsize 32 length with
  | none => rfl
  | some len =>
      obtain ⟨hlt, rfl⟩ := tryFromUsize_eq_some.mp hlength
      have hlen : (BitVec.ofNat 32 length).toNat = length := by
        rw [BitVec.toNat_ofNat, Nat.mod_eq_of_lt hlt]
      simp only [allocate, h _ hlen, Option.getD_none, if_true]

/-- With a block, the writer function runs on its range. -/
theorem writeOutput_of_some (encode : WriteM EncodeError (ArenaWriter N) Unit) {len p : U32}
    (h : a.tryAllocate base len = some (p, a')) :
    ∃ writer : ArenaWriter N, writer.bytes = a.bytes ∧ writer.start = a.next.toNat ∧
      writer.room = len.toNat ∧ a.next.toNat + len.toNat ≤ N ∧
      a.writeOutput base len.toNat encode =
        if (encode writer).1.isOk = false ∨ (encode writer).2.room ≠ 0 then
          (0, ((a'.store (encode writer).2.bytes).free base p len).2)
        else (packResult p len, a'.store (encode writer).2.bytes) := by
  obtain ⟨slot, stop, hlen, hslot, hstop, -, hle, hp, hne, rfl⟩ := tryAllocate_eq_some_iff.mp h
  have hpos : 0 < len.toNat := Nat.pos_of_ne_zero fun h0 => hlen (BitVec.eq_of_toNat_eq h0)
  have hmax := Target.u32_le_usizeMax
  have hlt := stop.isLt
  have hlength : tryFromUsize 32 len.toNat = some len :=
    tryFromUsize_eq_some.mpr ⟨len.isLt, by simp⟩
  have hoffset : (offset N base p).bind usizeTryFrom = some a.next.toNat := by
    rw [offset_eq_some_iff.mpr ⟨hp, by omega⟩, Option.bind_some, usizeTryFrom_eq]
  have hsat : saturatingAdd a.next.toNat len.toNat = a.next.toNat + len.toNat :=
    Nat.min_eq_left (by omega)
  have hfit : a.next.toNat + len.toNat ≤ N := by omega
  have hdestination : (a.push slot len stop).destination a.next.toNat
      (a.next.toNat + len.toNat) =
        some ⟨a.bytes, a.next.toNat, a.next.toNat + len.toNat, Nat.le_add_right _ _, hfit⟩ :=
    dif_pos ⟨Nat.le_add_right _ _, hfit⟩
  refine ⟨⟨a.bytes, a.next.toNat, a.next.toNat + len.toNat, Nat.le_add_right _ _, hfit⟩, rfl, rfl,
    Nat.add_sub_cancel_left _ _, hfit, ?_⟩
  unfold writeOutput
  simp only [hlength, allocate, h, Option.getD_some, if_neg hne, hoffset, hsat, hdestination]
  rfl

/-- **A reservation** is undone, or delivers the byte string of the writer function. -/
theorem writeOutput_cases {encode : WriteM EncodeError (ArenaWriter N) Unit} {P : Prop} {w : Bytes}
    (hf : Writes encode P w) (base : ℕ) (a : GuestArena N) (length : ℕ) :
    ((a.writeOutput base length encode).1 = 0 ∧
        Undisturbed base a (a.writeOutput base length encode).2) ∨
      (P ∧ ∃ ptr len, (a.writeOutput base length encode).1 = packResult ptr len ∧
        Delivered base a w ptr len (a.writeOutput base length encode).2) := by
  by_cases hnone : ∀ len : U32, len.toNat = length → a.tryAllocate base len = none
  · rw [writeOutput_of_none hnone]
    exact Or.inl ⟨rfl, .refl base a⟩
  · simp only [not_forall] at hnone
    obtain ⟨len, rfl, hsome⟩ := hnone
    obtain ⟨⟨p, a'⟩, htry⟩ := Option.ne_none_iff_exists'.mp hsome
    obtain ⟨writer, hbytes, hstart, hroom, hfit, hrun⟩ := writeOutput_of_some encode htry
    have hframe := Writes.run_arena_frame hf writer
    rw [hrun]
    by_cases hbad : (encode writer).1.isOk = false ∨ (encode writer).2.room ≠ 0
    · -- the writer failed or ran short: it wrote inside the block, which is given back
      rw [if_pos hbad]
      refine Or.inl ⟨rfl, undisturbed_free htry ?_⟩
      have hsame := hframe.sameOutside
      have hstop := writer.stop_le
      rw [hbytes, hstart] at hsame
      exact hsame.mono le_rfl hstop
    · rw [if_neg hbad]
      rw [not_or, not_not] at hbad
      obtain ⟨hok, hfull⟩ := hbad
      obtain ⟨⟨⟩, hresult⟩ : ∃ u, (encode writer).1 = .ok u := by
        cases hres : (encode writer).1 with
        | ok u => exact ⟨u, rfl⟩
        | error e =>
            rw [hres] at hok
            exact absurd rfl hok
      obtain ⟨hP, hle⟩ := Writes.of_run_arena_ok hf (Prod.ext hresult rfl)
      have hstore := Writes.run_arena hf hP hle
      rw [hstore, ArenaWriter.room_store] at hfull
      rw [hstore]
      exact Or.inr ⟨hP, p, len, rfl, delivered_store htry (by omega) hbytes hstart hle⟩

/-- With a block of the right size, a valid writer function is delivered. -/
theorem writeOutput_of_valid {encode : WriteM EncodeError (ArenaWriter N) Unit} {P : Prop}
    {w : Bytes} (hf : Writes encode P w) (hP : P) {len p : U32}
    (h : a.tryAllocate base len = some (p, a')) (hlen : w.length = len.toNat) :
    (a.writeOutput base len.toNat encode).1 = packResult p len := by
  obtain ⟨writer, -, -, hroom, -, hrun⟩ := writeOutput_of_some encode h
  have hfit : w.length ≤ writer.room := (hlen.trans hroom.symm).le
  have hfull : (writer.store w hfit).room = 0 := by
    rw [ArenaWriter.room_store, hroom, hlen, Nat.sub_self]
  rw [hrun, Writes.run_arena hf hP hfit, if_neg]
  rintro (hok | hne)
  · cases hok
  · exact hne hfull

end

end GuestArena

end AvmSdk.Sdk
