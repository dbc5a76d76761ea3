import AvmSdk.Sdk.Output.Gate
import AvmSdk.Sdk.Runtime.Allocator
import AvmSdk.Sdk.Runtime.Reservation

/-!
# Dispatch

The entry points of a contract module: read and decode the input, ask the contract, check its
output, and write the encoding into a new block of the arena.

* `dispatchMessageInner_cases`, `dispatchBatch_cases`: an entry point leaves the arena undisturbed
  and returns 0, or it delivers the encoding of an output that passed the gate.
* `dispatch_atomic`: this over every sequence of calls from a new arena, and what follows for a host
  that allocates an input, enters, and frees.
* `dispatch_sound`: what a host may rely on when an entry point returns a block.
-/

namespace AvmSdk.Sdk

open Wire Alloc

variable {N : ℕ}

/-- Source: `lib.rs` `Contract` -/
structure Contract where
  init : MessageInput → MessageOutput
  processMessage : MessageInput → MessageOutput

/-- Source: `lib.rs` `BatchContract` -/
structure BatchContract extends Contract where
  processBatch : BatchInput → BatchOutput

/-- The output of a contract for a message. -/
def Contract.respond (contract : Contract) (isInit : Bool) (input : MessageInput) :
    MessageOutput := if isInit then contract.init input else contract.processMessage input

section

variable [Target]

/-- Source: `runtime.rs` `dispatch_message_inner` -/
def dispatchMessageInner (contract : Contract) (base : ℕ) (arena : GuestArena N)
    (inputPtr inputLen : U32) (isInit : Bool) : U64 × GuestArena N :=
  match arena.read base inputPtr inputLen with
  | none => (0, arena)
  | some inputBytes =>
      match decodeMessageInput inputBytes with
      | .error _ => (0, arena)
      | .ok input =>
          if decide input.message.isDeploy ≠ isInit then (0, arena)
          else
            let output := contract.respond isInit input
            match messageOutputLenFor input isInit output with
            | .error _ => (0, arena)
            | .ok outputLen => arena.writeOutput base outputLen (writeMessageOutput output)

/-- Source: `runtime.rs` `dispatch_init` -/
def dispatchInit (contract : Contract) (base : ℕ) (arena : GuestArena N)
    (inputPtr inputLen : U32) : U64 × GuestArena N :=
  dispatchMessageInner contract base arena inputPtr inputLen true

/-- Source: `runtime.rs` `dispatch_message` -/
def dispatchMessage (contract : Contract) (base : ℕ) (arena : GuestArena N)
    (inputPtr inputLen : U32) : U64 × GuestArena N :=
  dispatchMessageInner contract base arena inputPtr inputLen false

/-- Source: `runtime.rs` `dispatch_batch` -/
def dispatchBatch (contract : BatchContract) (base : ℕ) (arena : GuestArena N)
    (inputPtr inputLen : U32) : U64 × GuestArena N :=
  match arena.read base inputPtr inputLen with
  | none => (0, arena)
  | some inputBytes =>
      match decodeBatchInput inputBytes with
      | .error _ => (0, arena)
      | .ok input =>
          let output := contract.processBatch input
          match batchOutputLenFor input output with
          | .error _ => (0, arena)
          | .ok outputLen => arena.writeOutput base outputLen (writeBatchOutput output)

/-! ## One call -/

variable {base : ℕ} {a : GuestArena N}

/-- **A message call** leaves the arena undisturbed, or delivers an output that passed the gate. -/
theorem dispatchMessageInner_cases (contract : Contract) (base : ℕ) (a : GuestArena N)
    (ptr len : U32) (isInit : Bool) :
    ((dispatchMessageInner contract base a ptr len isInit).1 = 0 ∧
        a.Undisturbed base (dispatchMessageInner contract base a ptr len isInit).2) ∨
      ∃ inputBytes input, a.read base ptr len = some inputBytes ∧
        decodeMessageInput inputBytes = .ok input ∧ decide input.message.isDeploy = isInit ∧
        (contract.respond isInit input).Answers input.message isInit ∧
        (contract.respond isInit input).Shaped (some input.requiredStateOutputMode) ∧
        (contract.respond isInit input).Writable ∧
        ∃ p l, (dispatchMessageInner contract base a ptr len isInit).1 = packResult p l ∧
          a.Delivered base (contract.respond isInit input).toBytes p l
            (dispatchMessageInner contract base a ptr len isInit).2 := by
  unfold dispatchMessageInner
  cases hread : a.read base ptr len with
  | none => exact Or.inl ⟨rfl, .refl base a⟩
  | some inputBytes =>
      dsimp only
      cases hdecode : decodeMessageInput inputBytes with
      | error e => exact Or.inl ⟨rfl, .refl base a⟩
      | ok input =>
          dsimp only
          by_cases hdeploy : decide input.message.isDeploy = isInit
          · rw [if_neg (not_not.mpr hdeploy)]
            cases hgate : messageOutputLenFor input isInit (contract.respond isInit input) with
            | error e => exact Or.inl ⟨rfl, .refl base a⟩
            | ok n =>
                obtain ⟨hanswers, hshaped, -, -⟩ := messageOutputLenFor_ok_iff.mp hgate
                rcases GuestArena.writeOutput_cases
                    (writes_writeMessageOutput (contract.respond isInit input)) base a n
                  with hzero | ⟨hwritable, hdelivered⟩
                · exact Or.inl hzero
                · exact Or.inr ⟨inputBytes, input, rfl, hdecode, hdeploy, hanswers, hshaped,
                    hwritable, hdelivered⟩
          · rw [if_pos hdeploy]
            exact Or.inl ⟨rfl, .refl base a⟩

/-- **A batch call** leaves the arena undisturbed, or delivers an output that passed the gate. -/
theorem dispatchBatch_cases (contract : BatchContract) (base : ℕ) (a : GuestArena N)
    (ptr len : U32) :
    ((dispatchBatch contract base a ptr len).1 = 0 ∧
        a.Undisturbed base (dispatchBatch contract base a ptr len).2) ∨
      ∃ inputBytes input, a.read base ptr len = some inputBytes ∧
        decodeBatchInput inputBytes = .ok input ∧
        (contract.processBatch input).Answers input ∧
        (contract.processBatch input).Shaped (some input.requiredStateOutputMode) ∧
        (contract.processBatch input).Writable ∧
        ∃ p l, (dispatchBatch contract base a ptr len).1 = packResult p l ∧
          a.Delivered base (contract.processBatch input).toBytes p l
            (dispatchBatch contract base a ptr len).2 := by
  unfold dispatchBatch
  cases hread : a.read base ptr len with
  | none => exact Or.inl ⟨rfl, .refl base a⟩
  | some inputBytes =>
      dsimp only
      cases hdecode : decodeBatchInput inputBytes with
      | error e => exact Or.inl ⟨rfl, .refl base a⟩
      | ok input =>
          dsimp only
          cases hgate : batchOutputLenFor input (contract.processBatch input) with
          | error e => exact Or.inl ⟨rfl, .refl base a⟩
          | ok n =>
              obtain ⟨hanswers, hshaped, -, -⟩ := batchOutputLenFor_ok_iff.mp hgate
              rcases GuestArena.writeOutput_cases
                  (writes_writeBatchOutput (contract.processBatch input)) base a n
                with hzero | ⟨hwritable, hdelivered⟩
              · exact Or.inl hzero
              · exact Or.inr ⟨inputBytes, input, rfl, hdecode, hanswers, hshaped, hwritable,
                  hdelivered⟩

/-! ## Any entry point -/

/-- An entry point of a module, with the contract it asks. -/
inductive EntryPoint
  | init (contract : Contract)
  | processMessage (contract : Contract)
  | processBatch (contract : BatchContract)

/-- A call of an entry point. -/
def EntryPoint.dispatch (base : ℕ) :
    EntryPoint → GuestArena N → U32 → U32 → U64 × GuestArena N
  | init contract, arena, ptr, len => dispatchInit contract base arena ptr len
  | processMessage contract, arena, ptr, len => dispatchMessage contract base arena ptr len
  | processBatch contract, arena, ptr, len => dispatchBatch contract base arena ptr len

/-- The second byte string is the public encoding of what the contract answers to the first. -/
def EntryPoint.Serializes : EntryPoint → Bytes → Bytes → Prop
  | init contract, input, output => ∃ x, decodeMessageInput input = .ok x ∧
      encodeMessageOutput (contract.init x) = .ok output
  | processMessage contract, input, output => ∃ x, decodeMessageInput input = .ok x ∧
      encodeMessageOutput (contract.processMessage x) = .ok output
  | processBatch contract, input, output => ∃ x, decodeBatchInput input = .ok x ∧
      encodeBatchOutput (contract.processBatch x) = .ok output

/-- **A call** leaves the arena undisturbed, or delivers the encoding of the contract's output. -/
theorem EntryPoint.dispatch_cases (entry : EntryPoint) (base : ℕ) (a : GuestArena N)
    (ptr len : U32) :
    ((entry.dispatch base a ptr len).1 = 0 ∧
        a.Undisturbed base (entry.dispatch base a ptr len).2) ∨
      ∃ inputBytes outputBytes p l, a.read base ptr len = some inputBytes ∧
        entry.Serializes inputBytes outputBytes ∧
        (entry.dispatch base a ptr len).1 = packResult p l ∧
        a.Delivered base outputBytes p l (entry.dispatch base a ptr len).2 := by
  cases entry with
  | init contract =>
      rcases dispatchMessageInner_cases contract base a ptr len true
        with hzero | ⟨bytes, x, hread, hdecode, -, -, hshaped, hwritable, p, l, hvalue, hdone⟩
      · exact Or.inl hzero
      · exact Or.inr ⟨bytes, _, p, l, hread,
          ⟨x, hdecode, encodeMessageOutput_ok_iff.mpr ⟨hshaped.none, hwritable, rfl⟩⟩, hvalue,
          hdone⟩
  | processMessage contract =>
      rcases dispatchMessageInner_cases contract base a ptr len false
        with hzero | ⟨bytes, x, hread, hdecode, -, -, hshaped, hwritable, p, l, hvalue, hdone⟩
      · exact Or.inl hzero
      · exact Or.inr ⟨bytes, _, p, l, hread,
          ⟨x, hdecode, encodeMessageOutput_ok_iff.mpr ⟨hshaped.none, hwritable, rfl⟩⟩, hvalue,
          hdone⟩
  | processBatch contract =>
      rcases dispatchBatch_cases contract base a ptr len
        with hzero | ⟨bytes, x, hread, hdecode, -, hshaped, hwritable, p, l, hvalue, hdone⟩
      · exact Or.inl hzero
      · exact Or.inr ⟨bytes, _, p, l, hread,
          ⟨x, hdecode, encodeBatchOutput_ok_iff.mpr ⟨hshaped.none, hwritable, rfl⟩⟩, hvalue, hdone⟩

/-! ## Runs of a module -/

/-- A step of a host that uses a module. -/
inductive HostCall (N : ℕ)
  | arena (call : ArenaCall)
  /-- The host writes to the memory of the module. -/
  | store (bytes : BytesN N)
  | enter (entry : EntryPoint) (ptr len : U32)

/-- What the module replies. -/
inductive HostReply
  | arena (reply : ArenaReply)
  | stored
  | returned (value : U64)

/-- The module as a machine. -/
def GuestArena.serve (base : ℕ) : HostCall N → GuestArena N → HostReply × GuestArena N
  | .arena call, a =>
      let (reply, a') := GuestArena.step base call a
      (.arena reply, a')
  | .store bytes, a => (.stored, a.store bytes)
  | .enter entry ptr len, a =>
      let (value, a') := entry.dispatch base a ptr len
      (.returned value, a')

/-- The arena of a module after a sequence of calls from a new one. -/
def GuestArena.served (N base : ℕ) (calls : List (HostCall N)) : GuestArena N :=
  (run (GuestArena.serve base) calls (GuestArena.new N)).2

/-- A call of an entry point keeps the invariant. -/
theorem GuestArena.WellStacked.dispatch (h : a.WellStacked base) (entry : EntryPoint)
    (ptr len : U32) : (entry.dispatch base a ptr len).2.WellStacked base := by
  rcases entry.dispatch_cases base a ptr len with ⟨-, hsame⟩ | ⟨_, _, p, l, -, -, -, hdone⟩
  · exact hsame.wellStacked h
  · exact hdone.wellStacked h

/-- **Every step of the host keeps the invariant.** -/
theorem GuestArena.WellStacked.serve (h : a.WellStacked base) (call : HostCall N) :
    (GuestArena.serve base call a).2.WellStacked base := by
  cases call with
  | arena call =>
      cases call with
      | allocate len =>
          rcases allocate_cases h len with hsame | ⟨-, hdone⟩
          · show (a.allocate base len).2.WellStacked base
            rw [hsame]
            exact h
          · exact hdone.wellStacked
      | free ptr len =>
          rcases free_cases h ptr len with ⟨hsame, -⟩ | ⟨-, -, -, hstacked⟩
          · show (a.free base ptr len).2.WellStacked base
            rw [hsame]
            exact h
          · exact hstacked
  | store bytes => exact h.store bytes
  | enter entry ptr len => exact h.dispatch entry ptr len

/-- The blocks are well stacked after any calls. -/
theorem GuestArena.wellStacked_served (N base : ℕ) (calls : List (HostCall N)) :
    (GuestArena.served N base calls).WellStacked base :=
  run_invariant (I := WellStacked base) (fun call _ h => h.serve call) calls wellStacked_new

/-- What a call of an entry point does: all or nothing. -/
structure EntryPoint.Atomic (entry : EntryPoint) (base : ℕ) (a : GuestArena N) (ptr len : U32)
    (value : U64) (a' : GuestArena N) : Prop where
  of_zero : value = 0 → a'.live base = a.live base ∧ a'.next = a.next ∧
    ∀ block ∈ a.live base, a'.blockBytes base block = a.blockBytes base block
  of_nonzero : value ≠ 0 → ∃ p l : U32, value.toNat = p.toNat * 2 ^ 32 + l.toNat ∧
    p.toNat = top base (a.live base) ∧ a'.live base = ⟨p.toNat, l.toNat⟩ :: a.live base ∧
    (∃ input, a.read base ptr len = some input ∧
      entry.Serializes input (a'.blockBytes base ⟨p.toNat, l.toNat⟩)) ∧
    ∀ block ∈ a.live base, a'.blockBytes base block = a.blockBytes base block

/-- Every entry point is atomic. -/
theorem GuestArena.WellStacked.atomic (h : a.WellStacked base) (entry : EntryPoint)
    (ptr len : U32) :
    entry.Atomic base a ptr len (entry.dispatch base a ptr len).1
      (entry.dispatch base a ptr len).2 := by
  rcases entry.dispatch_cases base a ptr len
    with ⟨hzero, hsame⟩ | ⟨input, output, p, l, hread, hserializes, hvalue, hdone⟩
  · refine ⟨fun _ => ⟨hsame.live_eq, hsame.next_eq, fun block hb => ?_⟩,
      fun hne => absurd hzero hne⟩
    exact h.blockBytes_eq hsame.sameBytes hb
  · rw [hvalue]
    constructor
    · exact fun hzero => absurd hzero (packResult_ne_zero hdone.ptr_ne_zero)
    · intro _
      refine ⟨p, l, toNat_packResult p l, hdone.ptr_eq.trans h.top_eq.symm, hdone.live_eq,
        ⟨input, hread, ?_⟩, fun block hb => h.blockBytes_eq hdone.sameBytes hb⟩
      rw [hdone.bytes_eq]
      exact hserializes

/-! ## The host's sequence -/

/-- How a host uses an entry point: it allocates a block for the input, writes to the memory, enters,
frees the output if there is one, and frees the input. Returned is whether no `free` failed.
Source: `guest_abi.rs` `check_vectors` -/
def hostSequence (base : ℕ) (entry : EntryPoint) (a : GuestArena N) (len : U32)
    (memory : BytesN N) : Bool × GuestArena N :=
  let (ptr, a) := a.allocate base len
  if ptr = 0 then (true, a)
  else
    let (value, a) := entry.dispatch base (a.store memory) ptr len
    let (freedOutput, a) :=
      if value ≠ 0 then a.free base (resultPtr value) (resultLen value) else (true, a)
    let (freedInput, a) := a.free base ptr len
    (freedOutput && freedInput, a)

/-- The most recent block can be freed. -/
theorem GuestArena.WellStacked.free_top (h : a.WellStacked base) {ptr len : U32}
    {blocks : List Block} (hlive : a.live base = ⟨ptr.toNat, len.toNat⟩ :: blocks) :
    ∃ a', a.free base ptr len = (true, a') ∧ a'.live base = blocks ∧ a'.WellStacked base := by
  rcases free_cases h ptr len with ⟨-, hhead⟩ | ⟨htrue, hlive', -, hstacked⟩
  · rw [hlive] at hhead
    exact absurd rfl hhead
  · rw [hlive] at hlive'
    exact ⟨_, Prod.ext htrue rfl, (List.cons.inj hlive').2.symm, hstacked⟩

/-- After an entry point and the `free` of its output, the live blocks are as before. -/
theorem GuestArena.WellStacked.free_result (h : a.WellStacked base) (entry : EntryPoint)
    (ptr len : U32) : ∃ a',
    (if (entry.dispatch base a ptr len).1 ≠ 0 then
        (entry.dispatch base a ptr len).2.free base (resultPtr (entry.dispatch base a ptr len).1)
          (resultLen (entry.dispatch base a ptr len).1)
      else (true, (entry.dispatch base a ptr len).2)) = (true, a') ∧
    a'.live base = a.live base ∧ a'.WellStacked base := by
  have hstacked := h.dispatch entry ptr len
  rcases entry.dispatch_cases base a ptr len with ⟨hzero, hsame⟩ | ⟨_, _, p, l, -, -, hvalue, hdone⟩
  · rw [if_neg (not_not.mpr hzero)]
    exact ⟨_, rfl, hsame.live_eq, hstacked⟩
  · have hne : packResult p l ≠ 0 := packResult_ne_zero hdone.ptr_ne_zero
    rw [hvalue, if_pos hne, resultPtr_packResult, resultLen_packResult]
    exact hstacked.free_top hdone.live_eq

/-- **The host's sequence** frees what it allocates. -/
theorem GuestArena.WellStacked.hostSequence (h : a.WellStacked base) (entry : EntryPoint)
    (len : U32) (memory : BytesN N) :
    ∃ a', Sdk.hostSequence base entry a len memory = (true, a') ∧ a'.live base = a.live base ∧
      a'.next = a.next := by
  suffices hsuffices : ∃ a', Sdk.hostSequence base entry a len memory = (true, a') ∧
      a'.live base = a.live base ∧ a'.WellStacked base by
    obtain ⟨a', hrun, hlive, hstacked⟩ := hsuffices
    refine ⟨a', hrun, hlive, BitVec.eq_of_toNat_eq ?_⟩
    rw [hstacked.next_eq, hlive, h.next_eq]
  unfold Sdk.hostSequence
  rcases allocate_cases h len with hzero | ⟨hne, hdone⟩
  · rw [hzero]
    exact ⟨a, if_pos rfl, rfl, h⟩
  · simp only [if_neg hne]
    obtain ⟨a₁, hout, hlive₁, hstacked₁⟩ :=
      (hdone.wellStacked.store memory).free_result entry (a.allocate base len).1 len
    rw [live_store, hdone.live_eq] at hlive₁
    obtain ⟨a₂, hin, hlive₂, hstacked₂⟩ := hstacked₁.free_top hlive₁
    refine ⟨a₂, ?_, hlive₂, hstacked₂⟩
    rw [hout]
    simp only [hin, Bool.and_self]

/-- **Dispatch is atomic on the arena.** After any sequence of calls from a new arena, every entry
point of every contract returns 0 and leaves the live blocks, the cursor and their bytes, or returns
one new block on top with the public encoding of the contract's output. A host that allocates,
enters and frees meets no failing `free`, and from an empty arena it ends with an empty arena. -/
theorem dispatch_atomic (N base : ℕ) (calls : List (HostCall N)) (entry : EntryPoint) :
    (∀ ptr len, entry.Atomic base (GuestArena.served N base calls) ptr len
      (entry.dispatch base (GuestArena.served N base calls) ptr len).1
      (entry.dispatch base (GuestArena.served N base calls) ptr len).2) ∧
    (∀ len memory, ∃ a',
      hostSequence base entry (GuestArena.served N base calls) len memory = (true, a') ∧
      a'.live base = (GuestArena.served N base calls).live base ∧
      a'.next = (GuestArena.served N base calls).next) ∧
    (∀ len memory, ∃ a', hostSequence base entry (GuestArena.new N) len memory = (true, a') ∧
      a'.live base = [] ∧ a'.next = 0) := by
  have hserved := GuestArena.wellStacked_served N base calls
  refine ⟨fun ptr len => hserved.atomic entry ptr len,
    fun len memory => hserved.hostSequence entry len memory, fun len memory => ?_⟩
  exact GuestArena.wellStacked_new.hostSequence entry len memory

end

end AvmSdk.Sdk
