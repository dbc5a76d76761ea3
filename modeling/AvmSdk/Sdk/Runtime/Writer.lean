import AvmSdk.Sdk.Output.Encode
import AvmSdk.Sdk.Output.Size
import AvmSdk.Wire.Patch

/-!
# The arena writer

The writer through which an entry point serializes an output straight into a reserved range of the
arena.

* `ArenaWriter`: a range of the arena's bytes that is filled from its front. A chunk that does not
  fit is refused whole.
* `Writes.run_arena`: a valid writer function whose byte string fits stores exactly this string;
  `Writes.run_arena_frame`: whatever happens, nothing outside the range changes.
* `sizes_and_writers_agree`: the computed size, the arena writer and the public serializer agree.
-/

namespace AvmSdk.Sdk

open Wire

variable {N : ℕ}

/-- The bytes of an arena of capacity `N`, and the part of them that is still to be filled.
Source: `runtime.rs` `ArenaWriter`, `remaining` -/
structure ArenaWriter (N : ℕ) where
  /-- The bytes of the arena. -/
  bytes : BytesN N
  /-- Where the rest begins. -/
  start : ℕ
  /-- Where the rest ends. -/
  stop : ℕ
  start_le : start ≤ stop
  stop_le : stop ≤ N

namespace ArenaWriter

/-- `self.remaining.len()`. -/
def room (self : ArenaWriter N) : ℕ := self.stop - self.start

/-- Fill the front of the rest. -/
def store (self : ArenaWriter N) (chunk : Bytes) (h : chunk.length ≤ self.room) :
    ArenaWriter N where
  bytes := ⟨patch self.bytes.val self.start chunk, by
    have hbytes := self.bytes.property
    have hstop := self.stop_le
    have hstart := self.start_le
    unfold room at h
    rw [length_patch (by omega), hbytes]⟩
  start := self.start + chunk.length
  stop := self.stop
  start_le := by
    have hstart := self.start_le
    unfold room at h
    omega
  stop_le := self.stop_le

/-- Source: `runtime.rs` `ArenaWriter::write` -/
def write (chunk : Bytes) : WriteM EncodeError (ArenaWriter N) Unit := fun self =>
  if h : chunk.length ≤ self.room then (.ok (), self.store chunk h)
  else (.error .lengthOverflow, self)

instance : Sink EncodeError (ArenaWriter N) := ⟨write⟩

/-- The chunks from a position on, one behind the other, are one chunk. -/
theorem store_store {self : ArenaWriter N} {u v : Bytes} (hu : u.length ≤ self.room)
    (hv : v.length ≤ (self.store u hu).room) (huv : (u ++ v).length ≤ self.room) :
    (self.store u hu).store v hv = self.store (u ++ v) huv := by
  have hstart := self.start_le
  have hstop := self.stop_le
  have hbytes := self.bytes.property
  simp only [store, mk.injEq, Subtype.mk.injEq, and_true]
  refine ⟨patch_append (by omega), ?_⟩
  rw [List.length_append, Nat.add_assoc]

/-- No bytes change nothing. -/
@[simp] theorem store_nil {self : ArenaWriter N} (h : ([] : Bytes).length ≤ self.room) :
    self.store [] h = self := by
  simp [store]

/-- What is left after a chunk. -/
theorem room_store {self : ArenaWriter N} {chunk : Bytes} (h : chunk.length ≤ self.room) :
    (self.store chunk h).room = self.room - chunk.length := by
  simp only [room, store]
  omega

/-- Chunks that fit are stored one behind the other. -/
theorem writeAll_of_fits {cs : List Bytes} {self : ArenaWriter N}
    (h : cs.flatten.length ≤ self.room) :
    (writeAll cs : WriteM EncodeError (ArenaWriter N) Unit) self =
      (.ok (), self.store cs.flatten h) := by
  induction cs generalizing self with
  | nil =>
      rw [writeAll]
      exact congrArg (Prod.mk (Except.ok ())) (store_nil h).symm
  | cons c cs ih =>
      have hlen : (c :: cs).flatten.length = c.length + cs.flatten.length := by
        rw [List.flatten_cons, List.length_append]
      have hc : c.length ≤ self.room := by omega
      have hcs : cs.flatten.length ≤ (self.store c hc).room := by
        rw [room_store]
        omega
      have hwrite : (Wire.write c : WriteM EncodeError (ArenaWriter N) Unit) self =
          (.ok (), self.store c hc) := dif_pos hc
      rw [writeAll, bind_run, hwrite]
      show (writeAll cs : WriteM EncodeError (ArenaWriter N) Unit) (self.store c hc) = _
      rw [ih hcs, store_store]
      rfl

/-- Chunks that do not all fit end in an error. -/
theorem writeAll_of_not_fits {cs : List Bytes} {self : ArenaWriter N}
    (h : self.room < cs.flatten.length) :
    ∃ self', (writeAll cs : WriteM EncodeError (ArenaWriter N) Unit) self =
      (.error .lengthOverflow, self') := by
  induction cs generalizing self with
  | nil => simp at h
  | cons c cs ih =>
      rw [List.flatten_cons, List.length_append] at h
      rw [writeAll, bind_run]
      by_cases hc : c.length ≤ self.room
      · have hwrite : (Wire.write c : WriteM EncodeError (ArenaWriter N) Unit) self =
            (.ok (), self.store c hc) := dif_pos hc
        rw [hwrite]
        apply ih
        rw [room_store]
        omega
      · have hwrite : (Wire.write c : WriteM EncodeError (ArenaWriter N) Unit) self =
            (.error .lengthOverflow, self) := dif_neg hc
        rw [hwrite]
        exact ⟨self, rfl⟩

/-- Writing stays inside the range that is to be filled. -/
structure Extends (w w' : ArenaWriter N) : Prop where
  sameOutside : SameOutside w.start w.stop w.bytes.val w'.bytes.val
  start_le : w.start ≤ w'.start
  stop_eq : w'.stop = w.stop

/-- A writer extends itself, -/
theorem Extends.refl (self : ArenaWriter N) : Extends self self :=
  ⟨SameOutside.refl _ _ _, le_rfl, rfl⟩

/-- also in two steps. -/
theorem Extends.trans {a b c : ArenaWriter N} (h : Extends a b) (h' : Extends b c) :
    Extends a c where
  sameOutside := h.sameOutside.trans (h'.sameOutside.mono h.start_le h.stop_eq.le)
  start_le := h.start_le.trans h'.start_le
  stop_eq := h'.stop_eq.trans h.stop_eq

/-- A stored chunk stays inside the range. -/
theorem extends_store {self : ArenaWriter N} {chunk : Bytes} (h : chunk.length ≤ self.room) :
    Extends self (self.store chunk h) where
  sameOutside := by
    have hbytes := self.bytes.property
    have hstart := self.start_le
    have hstop := self.stop_le
    unfold room at h
    exact (sameOutside_patch (by omega)).mono le_rfl (by omega)
  start_le := Nat.le_add_right _ _
  stop_eq := rfl

/-- However it ends, a sequence of chunks stays inside the range. -/
theorem extends_writeAll (cs : List Bytes) (self : ArenaWriter N) :
    Extends self ((writeAll cs : WriteM EncodeError (ArenaWriter N) Unit) self).2 := by
  induction cs generalizing self with
  | nil => exact .refl self
  | cons c cs ih =>
      rw [writeAll, bind_run]
      by_cases hc : c.length ≤ self.room
      · have hwrite : (Wire.write c : WriteM EncodeError (ArenaWriter N) Unit) self =
            (.ok (), self.store c hc) := dif_pos hc
        rw [hwrite]
        exact (extends_store hc).trans (ih (self.store c hc))
      · have hwrite : (Wire.write c : WriteM EncodeError (ArenaWriter N) Unit) self =
            (.error .lengthOverflow, self) := dif_neg hc
        rw [hwrite]
        exact .refl self

end ArenaWriter

/-! ## Writer functions on the arena writer -/

/-- A program that ends with a result after some chunks stays inside the range. -/
theorem Emits.run_arena_frame {f : WriteM EncodeError (ArenaWriter N) Unit} {cs : List Bytes}
    {r : Except EncodeError Unit} (hf : Emits f cs r) (writer : ArenaWriter N) :
    writer.Extends (f writer).2 := by
  have h := ArenaWriter.extends_writeAll cs writer
  rw [hf writer, emission]
  rcases hall : (writeAll cs : WriteM EncodeError (ArenaWriter N) Unit) writer with ⟨_ | _, w'⟩
  all_goals
    rw [hall] at h
    exact h

/-- However it ends, a writer function stays inside the range. -/
theorem Writes.run_arena_frame {f : WriteM EncodeError (ArenaWriter N) Unit} {P : Prop}
    {w : Bytes} (hf : Writes f P w) (writer : ArenaWriter N) : writer.Extends (f writer).2 := by
  by_cases hP : P
  · obtain ⟨cs, -, hcs⟩ := hf.of_valid hP
    exact Emits.run_arena_frame hcs writer
  · obtain ⟨cs, e, hcs⟩ := hf.of_invalid hP
    exact Emits.run_arena_frame hcs writer

/-- A valid writer function stores its byte string where it fits. -/
theorem Writes.run_arena {f : WriteM EncodeError (ArenaWriter N) Unit} {P : Prop} {w : Bytes}
    (hf : Writes f P w) (hP : P) {writer : ArenaWriter N} (h : w.length ≤ writer.room) :
    f writer = (.ok (), writer.store w h) := by
  obtain ⟨cs, rfl, hcs⟩ := hf.of_valid hP
  rw [hcs writer, emission, ArenaWriter.writeAll_of_fits h]

/-- A writer function succeeds only if it is valid and its byte string fits. -/
theorem Writes.of_run_arena_ok {f : WriteM EncodeError (ArenaWriter N) Unit} {P : Prop} {w : Bytes}
    (hf : Writes f P w) {writer writer' : ArenaWriter N} (h : f writer = (.ok (), writer')) :
    P ∧ w.length ≤ writer.room := by
  by_cases hP : P
  · refine ⟨hP, Nat.le_of_not_lt fun hroom => ?_⟩
    obtain ⟨cs, rfl, hcs⟩ := hf.of_valid hP
    obtain ⟨w', hw'⟩ := ArenaWriter.writeAll_of_not_fits hroom
    rw [hcs writer, emission, hw'] at h
    cases h
  · obtain ⟨cs, e, hcs⟩ := hf.of_invalid hP
    rw [hcs writer, emission] at h
    rcases hall : (writeAll cs : WriteM EncodeError (ArenaWriter N) Unit) writer with ⟨_ | _, w'⟩
    all_goals
      rw [hall] at h
      cases h

/-! ## The size, the arena writer and the serializer -/

section

variable [Target]

omit [Target] in
/-- The lengths of a shaped state update of less than 4 GiB fit their prefixes. -/
theorem StateUpdate.Shaped.writable {update : StateUpdate} (h : update.Shaped)
    (hlen : update.toBytes.length < 2 ^ 32) : update.Writable := by
  cases update with
  | fullReplace state =>
      rw [StateUpdate.length_toBytes, StateUpdate.payload, length_lengthPrefixed] at hlen
      show state.length < 2 ^ 32
      omega
  | dataPatchList patches => exact ⟨h.length, h.newBytes_length⟩

omit [Target] in
/-- A message that is well shaped can be written, -/
theorem OutboundIntent.Shaped.writable {intent : OutboundIntent} (h : intent.Shaped) :
    intent.Writable := ⟨h.extra_length, h.body_length⟩

omit [Target] in
/-- and an event as well. -/
theorem EventIntent.Shaped.writable {intent : EventIntent} (h : intent.Shaped) :
    intent.Writable :=
  ⟨h.eventName_length, h.topics_length, h.topic_length, h.fieldsBinary_length⟩

omit [Target] in
/-- The lengths of a shaped output of less than 4 GiB fit their prefixes. -/
theorem MessageOutput.Shaped.writable {output : MessageOutput}
    {requiredMode : Option StateOutputMode} (h : output.Shaped requiredMode)
    (hlen : output.toBytes.length < 2 ^ 32) : output.Writable := by
  rw [MessageOutput.length_toBytes] at hlen
  refine ⟨?_, ?_, h.outboundIntents_length, fun i hi => (h.outboundIntents_ok i hi).writable, ?_,
    h.eventIntents_length, fun i hi => (h.eventIntents_ok i hi).writable⟩
  · intro update hupdate
    rw [hupdate] at hlen
    apply (h.stateUpdate_ok update hupdate).writable
    show update.toBytes.length < 2 ^ 32
    simp only [Option.elim_some] at hlen
    omega
  · omega
  · omega

omit [Target] in
/-- A whole output that is not too long can be written. -/
theorem BatchOutput.Shaped.writable {output : BatchOutput}
    {requiredMode : Option StateOutputMode} (h : output.Shaped requiredMode)
    (hlen : output.toBytes.length < 2 ^ 32) : output.Writable := by
  rw [BatchOutput.length_toBytes] at hlen
  refine ⟨h.stateUpdate_ok.writable (by omega), by omega, h.outboundIntents_length,
    fun i hi => (h.outboundIntents_ok i hi).writable, h.eventIntents_length,
    fun i hi => (h.eventIntents_ok i hi).writable⟩

omit [Target] in
/-- A shaped output is shaped when no mode is required. -/
theorem MessageOutput.Shaped.none {output : MessageOutput} {requiredMode : Option StateOutputMode}
    (h : output.Shaped requiredMode) : output.Shaped none :=
  { h with
    success := fun hstatus =>
      let ⟨update, hupdate, _⟩ := h.success hstatus
      ⟨update, hupdate, nofun⟩ }

omit [Target] in
/-- A mode that nobody asks for is no condition. -/
theorem BatchOutput.Shaped.none {output : BatchOutput} {requiredMode : Option StateOutputMode}
    (h : output.Shaped requiredMode) : output.Shaped none :=
  { h with mode_ok := nofun }

/-- The serializer returns `n` bytes, and into any range of `n` bytes of an arena the writer
function succeeds, leaves no room, and stores these bytes there and nothing elsewhere. -/
def WritesExactly (encode : ∀ {σ : Type} [Sink EncodeError σ], WriteM EncodeError σ Unit)
    (serialized : Except EncodeError Bytes) (n : ℕ) : Prop :=
  ∃ bytes, serialized = .ok bytes ∧ bytes.length = n ∧
    ∀ {N : ℕ} (writer : ArenaWriter N), writer.room = n → ∃ writer' : ArenaWriter N,
      (encode : WriteM EncodeError (ArenaWriter N) Unit) writer = (.ok (), writer') ∧
      writer'.room = 0 ∧ writer'.bytes.val.extract writer.start writer.stop = bytes ∧
      SameOutside writer.start writer.stop writer.bytes.val writer'.bytes.val

omit [Target] in
/-- A valid writer function fills a range of the length of its byte string. -/
theorem Writes.fills {f : ∀ {σ : Type} [Sink EncodeError σ], WriteM EncodeError σ Unit} {P : Prop}
    {w : Bytes} (hf : ∀ {σ : Type} [Sink EncodeError σ], Writes (f (σ := σ)) P w) (hP : P) :
    WritesExactly f (runVec f) w.length := by
  refine ⟨w, (runVec_ok_iff hf).mpr ⟨hP, rfl⟩, rfl, fun {N} writer hroom => ?_⟩
  have hfit : w.length ≤ writer.room := hroom.ge
  have hstart := writer.start_le
  have hN := writer.stop_le
  have hbytes := writer.bytes.property
  have hstop : writer.stop = writer.start + w.length := by
    unfold ArenaWriter.room at hroom
    omega
  refine ⟨writer.store w hfit, Writes.run_arena hf hP hfit, ?_, ?_,
    (ArenaWriter.extends_store hfit).sameOutside⟩
  · rw [ArenaWriter.room_store, hroom, Nat.sub_self]
  · rw [hstop]
    exact extract_patch (by omega)

/-- **The computed size, the arena writer and the serializer agree**, on message outputs and on
batch outputs. -/
theorem sizes_and_writers_agree :
    (∀ output : MessageOutput,
      (∀ b : Slice, encodeMessageOutput output = .ok b.bytes →
        messageOutputLen output = .ok b.bytes.length) ∧
      (∀ requiredMode n, validateMessageShape output requiredMode = .ok () →
        messageOutputLen output = .ok n → n ≤ 2 ^ 32 - 1 →
        WritesExactly (writeMessageOutput output) (encodeMessageOutput output) n)) ∧
    (∀ output : BatchOutput,
      (∀ b : Slice, encodeBatchOutput output = .ok b.bytes →
        batchOutputLen output = .ok b.bytes.length) ∧
      (∀ requiredMode n, validateBatchShape output requiredMode = .ok () →
        batchOutputLen output = .ok n → n ≤ 2 ^ 32 - 1 →
        WritesExactly (writeBatchOutput output) (encodeBatchOutput output) n)) := by
  constructor
  · intro output
    constructor
    · intro b h
      obtain ⟨-, -, hb⟩ := encodeMessageOutput_ok_iff.mp h
      exact (measures_messageOutputLen output _).mpr ⟨congrArg List.length hb, hb ▸ b.length_le⟩
    · intro requiredMode n hshape hlen hn
      have hshaped := (validateMessageShape_ok_iff.mp hshape).none
      obtain ⟨rfl, -⟩ := (measures_messageOutputLen output n).mp hlen
      have hencode : encodeMessageOutput output = runVec (writeMessageOutput output) := by
        rw [encodeMessageOutput, encodeMessageOutputInner,
          validateMessageShape_ok_iff (u := ()) |>.mpr hshaped]
        rfl
      rw [hencode]
      exact Writes.fills (writes_writeMessageOutput output) (hshaped.writable (by omega))
  · intro output
    constructor
    · intro b h
      obtain ⟨-, -, hb⟩ := encodeBatchOutput_ok_iff.mp h
      exact (measures_batchOutputLen output _).mpr ⟨congrArg List.length hb, hb ▸ b.length_le⟩
    · intro requiredMode n hshape hlen hn
      have hshaped := (validateBatchShape_ok_iff.mp hshape).none
      obtain ⟨rfl, -⟩ := (measures_batchOutputLen output n).mp hlen
      have hencode : encodeBatchOutput output = runVec (writeBatchOutput output) := by
        rw [encodeBatchOutput, encodeBatchOutputInner,
          validateBatchShape_ok_iff (u := ()) |>.mpr hshaped]
        rfl
      rw [hencode]
      exact Writes.fills (writes_writeBatchOutput output) (hshaped.writable (by omega))

end

end AvmSdk.Sdk
