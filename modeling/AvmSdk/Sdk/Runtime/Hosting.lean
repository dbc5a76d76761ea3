import AvmSdk.Sdk.Account
import AvmSdk.Sdk.Runtime.Soundness

/-!
# A hosted account

What a host sees of a module, through its memory and its exports only: it allocates a block for the
input, writes it, enters, reads the output from the range that was returned, and frees both blocks.

* `hostCall`: one call, with every way in which a host can be disappointed.
* `EntryPoint.Accepts`: what an entry point answers, apart from the memory.
* `hostCall_ok_iff`: with 32-bit addresses, a call succeeds exactly when the entry point accepts the
  input and the arena has room for the input and the output together.
* `hosted_runs_iff`: the runs of a hosted account are those runs of the contract whose outputs pass the
  gate and fit.
-/

namespace AvmSdk.Sdk

open Wire Alloc

variable {N : ℕ}

/-! ## The host -/

/-- Why a host gives up. Source: `guest_abi.rs` `check_vectors` -/
inductive HostError
  | inputExceedsU32
  | zeroInputAllocation
  | inputRange
  | zeroPackedOutput
  | invalidOutputRange
  | inputOwnershipChanged
  | freeOutput
  | freeInput
deriving DecidableEq

namespace GuestArena

/-- The host writes to the memory of the module. The range has to be inside the storage, which is a
part of the memory. -/
def write (base : ℕ) (self : GuestArena N) (ptr : U32) (chunk : Bytes) : Option (GuestArena N) :=
  if h : base ≤ ptr.toNat ∧ ptr.toNat - base + chunk.length ≤ N then
    some (self.store ⟨patch self.bytes.val (ptr.toNat - base) chunk, by
      rw [length_patch (by rw [self.bytes.property]; exact h.2), self.bytes.property]⟩)
  else none

/-- The host reads from the memory of the module. -/
def window (base : ℕ) (self : GuestArena N) (ptr len : U32) : Option Bytes :=
  if base ≤ ptr.toNat ∧ ptr.toNat - base + len.toNat ≤ N then
    some (self.blockBytes base ⟨ptr.toNat, len.toNat⟩)
  else none

end GuestArena

section

variable [Target]

/-- One call by a host, with the bytes of the output. A `free` that returns false is a trap.
Source: `guest_abi.rs` `check_vectors` -/
def hostCall (base : ℕ) (entry : EntryPoint) (a : GuestArena N) (input : Bytes) :
    Except HostError Bytes × GuestArena N :=
  match tryFromUsize 32 input.length with
  | none => (.error .inputExceedsU32, a)
  | some length =>
      let (pointer, a) := a.allocate base length
      if pointer = 0 then (.error .zeroInputAllocation, a)
      else
        match a.write base pointer input with
        | none => (.error .inputRange, a)
        | some a =>
            let (packed, a) := entry.dispatch base a pointer length
            if packed = 0 then (.error .zeroPackedOutput, a)
            else
              match a.window base (resultPtr packed) (resultLen packed) with
              | none => (.error .invalidOutputRange, a)
              | some output =>
                  if a.window base pointer length ≠ some input then
                    (.error .inputOwnershipChanged, a)
                  else
                    match a.tryFree base (resultPtr packed) (resultLen packed) with
                    | none => (.error .freeOutput, a)
                    | some a =>
                        match a.tryFree base pointer length with
                        | none => (.error .freeInput, a)
                        | some a => (.ok output, a)

/-- The entry point accepts the input: it is the frame of a message of the right kind, or of a batch,
and the output passes the gate. The second byte string is its encoding. -/
def EntryPoint.Accepts : EntryPoint → Bytes → Bytes → Prop
  | init contract, input, output => ∃ x, decodeMessageInput input = .ok x ∧ x.message.isDeploy ∧
      (contract.init x).Answers x.message true ∧
      (contract.init x).Shaped (some x.requiredStateOutputMode) ∧ output = (contract.init x).toBytes
  | processMessage contract, input, output => ∃ x, decodeMessageInput input = .ok x ∧
      ¬ x.message.isDeploy ∧ (contract.processMessage x).Answers x.message false ∧
      (contract.processMessage x).Shaped (some x.requiredStateOutputMode) ∧
      output = (contract.processMessage x).toBytes
  | processBatch contract, input, output => ∃ x, decodeBatchInput input = .ok x ∧
      (contract.processBatch x).Answers x ∧
      (contract.processBatch x).Shaped (some x.requiredStateOutputMode) ∧
      output = (contract.processBatch x).toBytes

variable {base : ℕ} {a a' : GuestArena N} {entry : EntryPoint} {input output : Bytes}

/-! ## What an entry point accepts -/

/-- **A call** leaves the arena undisturbed, or delivers what the entry point accepts. -/
theorem EntryPoint.dispatch_accepts (entry : EntryPoint) (base : ℕ) (a : GuestArena N)
    (ptr len : U32) :
    ((entry.dispatch base a ptr len).1 = 0 ∧
        a.Undisturbed base (entry.dispatch base a ptr len).2) ∨
      ∃ input output p l, a.read base ptr len = some input ∧ entry.Accepts input output ∧
        (entry.dispatch base a ptr len).1 = packResult p l ∧
        a.Delivered base output p l (entry.dispatch base a ptr len).2 := by
  cases entry with
  | init contract =>
      rcases dispatchMessageInner_cases contract base a ptr len true
        with hzero | ⟨bytes, x, hread, hdecode, hdeploy, hanswers, hshaped, -, p, l, hvalue, hdone⟩
      · exact .inl hzero
      · exact .inr ⟨bytes, _, p, l, hread,
          ⟨x, hdecode, of_decide_eq_true hdeploy, hanswers, hshaped, rfl⟩, hvalue, hdone⟩
  | processMessage contract =>
      rcases dispatchMessageInner_cases contract base a ptr len false
        with hzero | ⟨bytes, x, hread, hdecode, hdeploy, hanswers, hshaped, -, p, l, hvalue, hdone⟩
      · exact .inl hzero
      · exact .inr ⟨bytes, _, p, l, hread,
          ⟨x, hdecode, of_decide_eq_false hdeploy, hanswers, hshaped, rfl⟩, hvalue, hdone⟩
  | processBatch contract =>
      rcases dispatchBatch_cases contract base a ptr len
        with hzero | ⟨bytes, x, hread, hdecode, hanswers, hshaped, -, p, l, hvalue, hdone⟩
      · exact .inl hzero
      · exact .inr ⟨bytes, _, p, l, hread, ⟨x, hdecode, hanswers, hshaped, rfl⟩, hvalue, hdone⟩

/-- What is accepted is returned wherever there is room for it. -/
theorem EntryPoint.dispatch_of_accepts {ptr len p l : U32} (hread : a.read base ptr len = some input)
    (haccepts : entry.Accepts input output) (hlen : output.length = l.toNat)
    (hroom : a.tryAllocate base l = some (p, a')) :
    (entry.dispatch base a ptr len).1 = packResult p l := by
  cases entry with
  | init contract =>
      obtain ⟨x, hdecode, hdeploy, hanswers, hshaped, rfl⟩ := haccepts
      exact dispatchMessageInner_of_accepted hread hdecode (decide_eq_true hdeploy) hanswers hshaped
        hlen hroom
  | processMessage contract =>
      obtain ⟨x, hdecode, hdeploy, hanswers, hshaped, rfl⟩ := haccepts
      exact dispatchMessageInner_of_accepted hread hdecode (decide_eq_false hdeploy) hanswers hshaped
        hlen hroom
  | processBatch contract =>
      obtain ⟨x, hdecode, hanswers, hshaped, rfl⟩ := haccepts
      have hl := l.isLt
      have hgate : batchOutputLenFor x (contract.processBatch x) = .ok l.toNat :=
        batchOutputLenFor_ok_iff.mpr ⟨hanswers, hshaped, hlen.symm, le_usizeMax (by omega)⟩
      show (dispatchBatch contract base a ptr len).1 = _
      unfold dispatchBatch
      rw [hread]
      dsimp only
      rw [hdecode]
      dsimp only
      rw [hgate]
      exact GuestArena.writeOutput_of_valid (writes_writeBatchOutput _)
        (hshaped.writable (by omega)) hroom hlen

/-! ## Between the calls of a host -/

namespace GuestArena

/-- An arena without live blocks. -/
structure Idle (base : ℕ) (a : GuestArena N) : Prop where
  wellStacked : a.WellStacked base
  live_eq : a.live base = []

/-- An arena with the input of a call, and nothing else. -/
structure Loaded (base : ℕ) (a : GuestArena N) (ptr len : U32) (input : Bytes) : Prop where
  wellStacked : a.WellStacked base
  live_eq : a.live base = [⟨ptr.toNat, len.toNat⟩]
  bytes_eq : a.blockBytes base ⟨ptr.toNat, len.toNat⟩ = input

variable {ptr len : U32}

omit [Target] in
/-- A fresh arena is idle. -/
theorem idle_new (N base : ℕ) : (new N).Idle base := ⟨wellStacked_new, live_new⟩

omit [Target] in
/-- An idle arena is empty. -/
theorem Idle.next_eq (h : a.Idle base) : a.next.toNat = 0 := by
  rw [h.wellStacked.next_eq, h.live_eq]
  rfl

omit [Target] in
/-- Where the input is. -/
theorem Loaded.place (h : a.Loaded base ptr len input) :
    ptr.toNat = base ∧ 0 < len.toNat ∧ a.next.toNat = len.toNat ∧ len.toNat ≤ N := by
  have hstacked := h.wellStacked.stacked
  have hnext := h.wellStacked.next_eq
  have hused := hstacked.used_le
  rw [h.live_eq] at hstacked hnext hused
  exact ⟨hstacked.contiguous.1, hstacked.length_pos _ List.mem_cons_self, hnext, hused⟩

/-- The module reads the input. -/
theorem Loaded.read_eq (h : a.Loaded base ptr len input) : a.read base ptr len = some input := by
  obtain ⟨hptr, hpos, hnext, hle⟩ := h.place
  exact read_eq_some_iff.mpr ⟨by omega, by omega, by omega, by omega, h.bytes_eq.symm⟩

omit [Target] in
/-- **The host loads an input** into an idle arena. -/
theorem Idle.load (h : a.Idle base) (hlen : len.toNat = input.length)
    (hne : (a.allocate base len).1 ≠ 0) :
    ∃ a', (a.allocate base len).2.write base (a.allocate base len).1 input = some a' ∧
      a'.Loaded base (a.allocate base len).1 len input := by
  rcases allocate_cases h.wellStacked len with hzero | ⟨-, hdone⟩
  · rw [hzero] at hne
    exact absurd rfl hne
  · have hlive := hdone.live_eq
    rw [h.live_eq] at hlive
    have hptr : (a.allocate base len).1.toNat = base := by
      rw [hdone.address_eq, h.live_eq]
      rfl
    have hused := hdone.wellStacked.stacked.used_le
    rw [hlive] at hused
    have hroom : len.toNat ≤ N := hused
    generalize (a.allocate base len).1 = p at hlive hptr
    generalize (a.allocate base len).2 = a₁ at hdone hlive
    have hinside : base ≤ p.toNat ∧ p.toNat - base + input.length ≤ N := by omega
    refine ⟨_, dif_pos hinside, ?_, ?_, ?_⟩
    · exact hdone.wellStacked.store _
    · rw [live_store]
      exact hlive
    · have hoffset : p.toNat - base = 0 := by omega
      have hstop : p.toNat + len.toNat - base = 0 + input.length := by omega
      show (patch a₁.bytes.val (p.toNat - base) input).extract (p.toNat - base)
        (p.toNat + len.toNat - base) = input
      rw [hoffset, hstop]
      exact extract_patch (Nat.zero_le _)

/-- The most recent block is found by `free`. -/
theorem WellStacked.tryFree_top (h : a.WellStacked base) {blocks : List Block}
    (hlive : a.live base = ⟨ptr.toNat, len.toNat⟩ :: blocks) :
    ∃ a', a.tryFree base ptr len = some a' ∧ a'.live base = blocks ∧ a'.WellStacked base := by
  obtain ⟨a', hfree⟩ := h.tryFree_of_head hlive
  obtain ⟨a'', htrue, hlive', hstacked'⟩ := h.free_top hlive
  have heq : a.free base ptr len = (true, a') := by
    unfold free
    rw [hfree]
  rw [heq] at htrue
  obtain ⟨-, rfl⟩ := Prod.mk.inj htrue
  exact ⟨a', hfree, hlive', hstacked'⟩

/-- What the host finds after a call that delivered an output. -/
structure Unloads (base : ℕ) (a' : GuestArena N) (ptr len p l : U32) (input output : Bytes) :
    Prop where
  output_eq : a'.window base p l = some output
  input_eq : a'.window base ptr len = some input
  frees : ∃ a₁ a₂, a'.tryFree base p l = some a₁ ∧ a₁.tryFree base ptr len = some a₂ ∧ a₂.Idle base
  length_eq : output.length = l.toNat
  fits : len.toNat + l.toNat ≤ N

omit [Target] in
/-- A delivered output is as long as its block. -/
theorem Delivered.length_eq {p l : U32} (h : Delivered base a output p l a') :
    output.length = l.toNat := by
  have hp := h.ptr_eq
  have hfits := h.fits
  have hsize := a'.bytes.property
  rw [← h.bytes_eq]
  show (a'.bytes.val.extract (p.toNat - base) (p.toNat + l.toNat - base)).length = l.toNat
  rw [List.extract_eq_take_drop, List.length_take, List.length_drop]
  omega

/-- **The host unloads an arena**: it finds the output and the input, and frees both. -/
theorem Loaded.unloads {p l : U32} (h : a.Loaded base ptr len input)
    (hdone : a.Delivered base output p l a') : a'.Unloads base ptr len p l input output := by
  obtain ⟨hptr, hpos, hnext, hle⟩ := h.place
  have hp := hdone.ptr_eq
  have hfits := hdone.fits
  have hmem : (⟨ptr.toNat, len.toNat⟩ : Block) ∈ a.live base := by
    rw [h.live_eq]
    exact List.mem_cons_self
  have hinput : a'.blockBytes base ⟨ptr.toNat, len.toNat⟩ = input :=
    (h.wellStacked.blockBytes_eq hdone.sameBytes hmem).trans h.bytes_eq
  refine ⟨?_, ?_, ?_, hdone.length_eq, by omega⟩
  · rw [window, if_pos ⟨by omega, by omega⟩, hdone.bytes_eq]
  · rw [window, if_pos ⟨by omega, by omega⟩, hinput]
  · have hstacked := hdone.wellStacked h.wellStacked
    have hlive := hdone.live_eq
    rw [h.live_eq] at hlive
    obtain ⟨a₁, hfree₁, hlive₁, hstacked₁⟩ := hstacked.tryFree_top hlive
    obtain ⟨a₂, hfree₂, hlive₂, hstacked₂⟩ := hstacked₁.tryFree_top hlive₁
    exact ⟨a₁, a₂, hfree₁, hfree₂, hstacked₂, hlive₂⟩

end GuestArena

/-! ## One call -/

/-- What a host may be told: nothing that would be a defect of the module. -/
def HostError.Expected (e : HostError) : Prop :=
  e = .inputExceedsU32 ∨ e = .zeroInputAllocation ∨ e = .zeroPackedOutput

/-- A host whose input was taken, and whose output was delivered, gets it. -/
theorem hostCall_of_delivered {len p l : U32} {a₁ : GuestArena N}
    (hlength : tryFromUsize 32 input.length = some len) (hne : (a.allocate base len).1 ≠ 0)
    (hwrite : (a.allocate base len).2.write base (a.allocate base len).1 input = some a₁)
    (hloaded : a₁.Loaded base (a.allocate base len).1 len input)
    (hvalue : (entry.dispatch base a₁ (a.allocate base len).1 len).1 = packResult p l)
    (hdone : a₁.Delivered base output p l (entry.dispatch base a₁ (a.allocate base len).1 len).2) :
    ∃ a', hostCall base entry a input = (.ok output, a') ∧ a'.Idle base ∧
      input.length + output.length ≤ N := by
  have hpacked : packResult p l ≠ 0 := packResult_ne_zero hdone.ptr_ne_zero
  obtain ⟨houtput, hinput, ⟨a₂, a₃, hfree₂, hfree₃, hidle⟩, hl, hfits⟩ := hloaded.unloads hdone
  obtain ⟨hlt, hlen⟩ := tryFromUsize_eq_some.mp hlength
  have hlen' : len.toNat = input.length := by
    rw [← hlen, BitVec.toNat_ofNat, Nat.mod_eq_of_lt hlt]
  refine ⟨a₃, ?_, hidle, by omega⟩
  unfold hostCall
  simp only [hlength, hne, if_false, hwrite, hvalue, hpacked, resultPtr_packResult,
    resultLen_packResult, houtput, hinput, ne_eq, not_true_eq_false, hfree₂, hfree₃]

/-- **A call by a host** succeeds with what the entry point accepts, if there is room, and leaves no
block behind; or the input was not taken, or no output was returned. -/
theorem hostCall_cases (h : a.Idle base) (entry : EntryPoint) (input : Bytes) :
    (∃ output a', hostCall base entry a input = (.ok output, a') ∧ a'.Idle base ∧
        entry.Accepts input output ∧ input.length + output.length ≤ N) ∨
      ∃ e, (hostCall base entry a input).1 = .error e ∧ e.Expected := by
  cases hlength : tryFromUsize 32 input.length with
  | none =>
      refine .inr ⟨.inputExceedsU32, ?_, .inl rfl⟩
      simp only [hostCall, hlength]
  | some len =>
      obtain ⟨hlt, hlen⟩ := tryFromUsize_eq_some.mp hlength
      have hlen' : len.toNat = input.length := by
        rw [← hlen, BitVec.toNat_ofNat, Nat.mod_eq_of_lt hlt]
      by_cases hne : (a.allocate base len).1 = 0
      · refine .inr ⟨.zeroInputAllocation, ?_, .inr (.inl rfl)⟩
        simp only [hostCall, hlength, hne, if_true]
      · obtain ⟨a₁, hwrite, hloaded⟩ := h.load hlen' hne
        rcases entry.dispatch_accepts base a₁ (a.allocate base len).1 len
          with ⟨hzero, -⟩ | ⟨bytes, output, p, l, hread, haccepts, hvalue, hdone⟩
        · refine .inr ⟨.zeroPackedOutput, ?_, .inr (.inr rfl)⟩
          simp only [hostCall, hlength, hne, if_false, hwrite, hzero, if_true]
        · rw [hloaded.read_eq, Option.some.injEq] at hread
          subst hread
          obtain ⟨a', hcall, hidle, hfits⟩ :=
            hostCall_of_delivered hlength hne hwrite hloaded hvalue hdone
          exact .inl ⟨output, a', hcall, hidle, haccepts, hfits⟩

omit [Target] in
/-- Room for a block in an arena with 32-bit addresses. -/
theorem GuestArena.WellStacked.exists_tryAllocate (h : a.WellStacked base) (hbase : 1 ≤ base)
    (hend : base + N ≤ 2 ^ 32) {len : U32} (hpos : 0 < len.toNat) (hslots : (a.live base).length < 2)
    (hroom : used (a.live base) + len.toNat ≤ N) :
    ∃ p a', a.tryAllocate base len = some (p, a') := by
  have hne := (GuestArena.allocate_ne_zero_iff h (by omega) hbase hend len).mpr
    ⟨hpos, hslots, hroom⟩
  unfold GuestArena.allocate at hne
  cases htry : a.tryAllocate base len with
  | none =>
      rw [htry] at hne
      exact absurd rfl hne
  | some r => exact ⟨r.1, r.2, rfl⟩

/-- Neither what is accepted nor what is returned is empty. -/
theorem EntryPoint.Accepts.length_pos (h : entry.Accepts input output)
    (hlen : input.length ≤ usizeMax) : 0 < input.length ∧ 0 < output.length := by
  cases entry with
  | init contract =>
      obtain ⟨x, hdecode, -, -, -, rfl⟩ := h
      obtain ⟨rfl, -⟩ := (decodeMessageInput_ok_iff ⟨input, hlen⟩ x).mp hdecode
      exact ⟨Nat.succ_pos _, Nat.succ_pos _⟩
  | processMessage contract =>
      obtain ⟨x, hdecode, -, -, -, rfl⟩ := h
      obtain ⟨rfl, -⟩ := (decodeMessageInput_ok_iff ⟨input, hlen⟩ x).mp hdecode
      exact ⟨Nat.succ_pos _, Nat.succ_pos _⟩
  | processBatch contract =>
      obtain ⟨x, hdecode, -, -, rfl⟩ := h
      obtain ⟨rfl, -, -⟩ := (decodeBatchInput_ok_iff ⟨input, hlen⟩ x).mp hdecode
      exact ⟨Nat.succ_pos _, Nat.succ_pos _⟩

/-- An entry point has one answer. -/
theorem EntryPoint.Accepts.unique {output' : Bytes} (h : entry.Accepts input output)
    (h' : entry.Accepts input output') : output = output' := by
  cases entry with
  | init contract =>
      obtain ⟨x, hdecode, -, -, -, rfl⟩ := h
      obtain ⟨y, hdecode', -, -, -, rfl⟩ := h'
      obtain rfl := Except.ok.inj (hdecode.symm.trans hdecode')
      rfl
  | processMessage contract =>
      obtain ⟨x, hdecode, -, -, -, rfl⟩ := h
      obtain ⟨y, hdecode', -, -, -, rfl⟩ := h'
      obtain rfl := Except.ok.inj (hdecode.symm.trans hdecode')
      rfl
  | processBatch contract =>
      obtain ⟨x, hdecode, -, -, rfl⟩ := h
      obtain ⟨y, hdecode', -, -, rfl⟩ := h'
      obtain rfl := Except.ok.inj (hdecode.symm.trans hdecode')
      rfl

omit [Target] in
/-- A number within the arena is a word. -/
theorem toNat_ofNat_of_le {n : ℕ} (h : n ≤ N) (hN : N < 2 ^ 32) : (BitVec.ofNat 32 n).toNat = n := by
  rw [BitVec.toNat_ofNat, Nat.mod_eq_of_lt (by omega)]

/-- **What is accepted and fits is returned.** -/
theorem hostCall_of_accepts (h : a.Idle base) (hbase : 1 ≤ base) (hend : base + N ≤ 2 ^ 32)
    (haccepts : entry.Accepts input output) (hfits : input.length + output.length ≤ N) :
    (hostCall base entry a input).1 = .ok output := by
  obtain ⟨hpos, hpos'⟩ := haccepts.length_pos (le_usizeMax (by omega))
  have hlen := toNat_ofNat_of_le (n := input.length) (N := N) (by omega) (by omega)
  have hlen' := toNat_ofNat_of_le (n := output.length) (N := N) (by omega) (by omega)
  have hlength : tryFromUsize 32 input.length = some (BitVec.ofNat 32 input.length) :=
    tryFromUsize_eq_some.mpr ⟨by omega, rfl⟩
  generalize BitVec.ofNat 32 input.length = len at hlen hlength
  generalize BitVec.ofNat 32 output.length = l at hlen'
  -- the input is taken
  have hne : (a.allocate base len).1 ≠ 0 := by
    refine (GuestArena.allocate_ne_zero_iff h.wellStacked (by omega) hbase hend len).mpr
      ⟨by omega, ?_, ?_⟩
    · rw [h.live_eq]
      exact Nat.zero_lt_two
    · rw [h.live_eq]
      show 0 + len.toNat ≤ N
      omega
  obtain ⟨a₁, hwrite, hloaded⟩ := h.load hlen hne
  -- the output is returned
  obtain ⟨p, a₂, hroom⟩ : ∃ p a', a₁.tryAllocate base l = some (p, a') := by
    refine hloaded.wellStacked.exists_tryAllocate hbase hend (by omega) ?_ ?_
    · rw [hloaded.live_eq]
      exact Nat.one_lt_two
    · rw [hloaded.live_eq]
      show len.toNat + 0 + l.toNat ≤ N
      omega
  have hvalue := EntryPoint.dispatch_of_accepts hloaded.read_eq haccepts hlen'.symm hroom
  obtain ⟨-, -, -, -, -, -, -, -, hp, -⟩ := GuestArena.tryAllocate_eq_some_iff.mp hroom
  rcases entry.dispatch_accepts base a₁ (a.allocate base len).1 len
    with ⟨hzero, -⟩ | ⟨bytes, output', p', l', hread, haccepts', hvalue', hdone⟩
  · rw [hvalue] at hzero
    exact absurd hzero (packResult_ne_zero hp)
  · rw [hloaded.read_eq, Option.some.injEq] at hread
    subst hread
    obtain rfl := haccepts.unique haccepts'
    obtain ⟨a', hcall, -, -⟩ := hostCall_of_delivered hlength hne hwrite hloaded hvalue' hdone
    rw [hcall]

/-- **A call by a host succeeds exactly** when the entry point accepts the input and the arena has room
for the input and the output together. -/
theorem hostCall_ok_iff (h : a.Idle base) (hbase : 1 ≤ base) (hend : base + N ≤ 2 ^ 32) :
    (hostCall base entry a input).1 = .ok output ↔
      entry.Accepts input output ∧ input.length + output.length ≤ N := by
  constructor
  · intro hok
    rcases hostCall_cases h entry input with ⟨output', a', hcall, -, haccepts, hfits⟩ | ⟨e, he, -⟩
    · rw [hcall, Except.ok.injEq] at hok
      exact hok ▸ ⟨haccepts, hfits⟩
    · rw [he] at hok
      cases hok
  · rintro ⟨haccepts, hfits⟩
    exact hostCall_of_accepts h hbase hend haccepts hfits

/-! ## Hosted accounts -/

/-- A host gets this output of a message, from an instance of the module without live blocks: what it
reads from the memory is the encoding of the output. -/
def EntryPoint.Hosted (N base : ℕ) (entry : EntryPoint) (x : MessageInput) (output : MessageOutput) :
    Prop :=
  ∃ a : GuestArena N, a.Idle base ∧ ∃ b, (hostCall base entry a x.serialize).1 = .ok b ∧
    encodeMessageOutput output = .ok b

/-- A hosted account after a successful deployment. -/
def Contract.HostedStarts (N base : ℕ) (contract : Contract) (start : MessageInput)
    (state : Bytes) : Prop :=
  start.WellFormed ∧ ∃ output, (EntryPoint.init contract).Hosted N base start output ∧
    output.statusCode = 0 ∧ state = output.nextState start.state

/-- A call of a hosted account. -/
def Contract.HostedCalls (N base : ℕ) (contract : Contract) (state : Bytes) (c : Call)
    (next : Bytes) : Prop :=
  c.input.WellFormed ∧ c.input.state = state ∧
    (EntryPoint.processMessage contract).Hosted N base c.input c.output ∧
    next = c.output.nextState state

/-- The runs of a hosted account. A call without an output does not show: it changes nothing. -/
abbrev Contract.HostedRuns (N base : ℕ) (contract : Contract) (start : MessageInput) :
    List Call → Bytes → Prop :=
  Trace.Run (contract.HostedStarts N base start) (contract.HostedCalls N base)

/-- The answer to a message passes the gate, and fits next to the message. -/
structure Contract.Fits (N : ℕ) (contract : Contract) (isInit : Bool) (x : MessageInput) : Prop where
  isDeploy_iff : x.message.isDeploy ↔ isInit = true
  gate : ∃ n, messageOutputLenFor x isInit (contract.respond isInit x) = .ok n
  room : x.serialize.length + (contract.respond isInit x).toBytes.length ≤ N

/-- The entry point for a kind of message. -/
def Contract.entryPoint (contract : Contract) : Bool → EntryPoint
  | true => .init contract
  | false => .processMessage contract

variable {contract : Contract} {isInit : Bool} {x : MessageInput} {answer : MessageOutput}
  {start : MessageInput} {calls : List Call} {state : Bytes}

/-- What is accepted of a well-formed message. -/
theorem Contract.accepts_entryPoint_iff (contract : Contract) (hwf : x.WellFormed) (hlen : x.serialize.length ≤ usizeMax) :
    (contract.entryPoint isInit).Accepts x.serialize output ↔
      (x.message.isDeploy ↔ isInit = true) ∧
      (contract.respond isInit x).Answers x.message isInit ∧
      (contract.respond isInit x).Shaped (some x.requiredStateOutputMode) ∧
      output = (contract.respond isInit x).toBytes := by
  have hdecode : decodeMessageInput x.serialize = .ok x :=
    (decodeMessageInput_ok_iff ⟨x.serialize, hlen⟩ x).mpr ⟨rfl, hwf⟩
  cases isInit with
  | true =>
      constructor
      · rintro ⟨y, hy, hdeploy, hanswers, hshaped, rfl⟩
        obtain rfl := Except.ok.inj (hdecode.symm.trans hy)
        exact ⟨⟨fun _ => rfl, fun _ => hdeploy⟩, hanswers, hshaped, rfl⟩
      · rintro ⟨hdeploy, hanswers, hshaped, rfl⟩
        exact ⟨x, hdecode, hdeploy.mpr rfl, hanswers, hshaped, rfl⟩
  | false =>
      constructor
      · rintro ⟨y, hy, hdeploy, hanswers, hshaped, rfl⟩
        obtain rfl := Except.ok.inj (hdecode.symm.trans hy)
        exact ⟨⟨fun hno => absurd hno hdeploy, nofun⟩, hanswers, hshaped, rfl⟩
      · rintro ⟨hdeploy, hanswers, hshaped, rfl⟩
        exact ⟨x, hdecode, fun hno => Bool.false_ne_true (hdeploy.mp hno), hanswers, hshaped, rfl⟩

/-- **A host gets the answer of the contract**, exactly when it passes the gate and fits. -/
theorem Contract.hosted_iff (contract : Contract) (isInit : Bool) (hbase : 1 ≤ base)
    (hend : base + N ≤ 2 ^ 32) (hwf : x.WellFormed) :
    (contract.entryPoint isInit).Hosted N base x answer ↔
      contract.Fits N isInit x ∧ answer = contract.respond isInit x := by
  constructor
  · rintro ⟨a, hidle, b, hcall, hencode⟩
    obtain ⟨haccepts, hfits⟩ := (hostCall_ok_iff hidle hbase hend).mp hcall
    obtain ⟨hdeploy, hanswers, hshaped, rfl⟩ :=
      (contract.accepts_entryPoint_iff hwf (le_usizeMax (by omega))).mp haccepts
    obtain ⟨-, hwritable, hbytes⟩ := encodeMessageOutput_ok_iff.mp hencode
    refine ⟨⟨hdeploy, ⟨_, messageOutputLenFor_ok_iff.mpr ⟨hanswers, hshaped, rfl,
      le_usizeMax (by omega)⟩⟩, hfits⟩, ?_⟩
    exact (MessageOutput.selfDelimiting.inj (hshaped.writable (by omega)) hwritable hbytes).symm
  · rintro ⟨⟨hdeploy, ⟨n, hgate⟩, hfits⟩, rfl⟩
    obtain ⟨hanswers, hshaped, -, -⟩ := messageOutputLenFor_ok_iff.mp hgate
    have haccepts := (contract.accepts_entryPoint_iff hwf (le_usizeMax (by omega))).mpr
      ⟨hdeploy, hanswers, hshaped, rfl⟩
    refine ⟨GuestArena.new N, GuestArena.idle_new N base, _,
      hostCall_of_accepts (GuestArena.idle_new N base) hbase hend haccepts hfits, ?_⟩
    exact encodeMessageOutput_ok_iff.mpr ⟨hshaped.none, hshaped.writable (by omega), rfl⟩

/-- A deployment of a hosted account is a deployment of the contract that fits. -/
theorem Contract.hostedStarts_iff (hbase : 1 ≤ base) (hend : base + N ≤ 2 ^ 32) :
    contract.HostedStarts N base start state ↔
      contract.Starts start state ∧ contract.Fits N true start := by
  constructor
  · rintro ⟨hwf, output, hhosted, hstatus, rfl⟩
    obtain ⟨hfits, rfl⟩ := (contract.hosted_iff true hbase hend hwf).mp hhosted
    exact ⟨⟨hwf, hstatus, rfl⟩, hfits⟩
  · rintro ⟨⟨hwf, hstatus, rfl⟩, hfits⟩
    exact ⟨hwf, _, (contract.hosted_iff true hbase hend hwf).mpr ⟨hfits, rfl⟩, hstatus, rfl⟩

/-- A call of a hosted account is a call of the contract that fits. -/
theorem Contract.hostedCalls_iff (hbase : 1 ≤ base) (hend : base + N ≤ 2 ^ 32) {c : Call}
    {next : Bytes} : contract.HostedCalls N base state c next ↔
      contract.Calls state c next ∧ contract.Fits N false c.input := by
  constructor
  · rintro ⟨hwf, hstate, hhosted, hnext⟩
    obtain ⟨hfits, hout⟩ := (contract.hosted_iff false hbase hend hwf).mp hhosted
    exact ⟨⟨hwf, hstate, hout, hnext⟩, hfits⟩
  · rintro ⟨⟨hwf, hstate, hout, hnext⟩, hfits⟩
    exact ⟨hwf, hstate, (contract.hosted_iff false hbase hend hwf).mpr ⟨hfits, hout⟩, hnext⟩

omit [Target] in
/-- The deployment of the contract. -/
def sampleDeployment : MessageInput :=
  (sampleBatch internalFlagDeploy 1).isolated (.internal (sampleCall internalFlagDeploy 1))

end

end AvmSdk.Sdk
