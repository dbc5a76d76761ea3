import AvmSdk.Wire.LittleEndian

/-!
# Writing to a sink

A writer is a program that puts byte strings into a sink, one after another, and may fail; what it
put before it failed stays put. The program does not look at the sink, so what it does is described
by the byte strings it puts and by how it ends, the same for every sink.

* `Emits f cs r`: at every state of the sink, `f` puts the chunks `cs` and ends with `r`.
* `Writes f P w`: if `P` holds then `f` puts chunks that make up `w` and succeeds, else it fails.
  One rule for each way of building a writer: `writes_write`, `writes_pure`, `Writes.bind`,
  `Writes.lift`, `Writes.forM`, `Writes.optional`.
* `Writes.run_append`: what a writer leaves in a sink that only grows.
-/

namespace AvmSdk.Wire

variable {ε σ α γ : Type}

/-- A program that writes to a sink in `σ` and may fail with an error in `ε`. -/
abbrev WriteM (ε σ : Type) := ExceptT ε (StateM σ)

/-- A sink for byte strings. -/
class Sink (ε σ : Type) where
  /-- Put a byte string into the sink, or fail. -/
  write : Bytes → WriteM ε σ Unit

export Sink (write)

/-- Sequencing runs the second program where the first succeeds. -/
theorem bind_run (f : WriteM ε σ α) (g : α → WriteM ε σ γ) (s : σ) :
    (f >>= g) s = match f s with
      | (.ok a, s') => g a s'
      | (.error e, s') => (.error e, s') := by
  show (ExceptT.bind f g) s = _
  rcases h : f s with ⟨_ | _, s'⟩ <;>
  · simp only [ExceptT.bind, ExceptT.mk, bind, StateT.bind, h]
    rfl

section

variable [Sink ε σ]

/-- Put chunks one after another, up to the first that fails. -/
def writeAll : List Bytes → WriteM ε σ Unit
  | [] => pure ()
  | c :: cs => do
      write c
      writeAll cs

/-- The run of a program that puts chunks and then ends with a given result. -/
def emission (cs : List Bytes) (r : Except ε α) (s : σ) : Except ε α × σ :=
  match writeAll cs s with
  | (.ok (), s') => (r, s')
  | (.error e, s') => (.error e, s')

/-- At every state of the sink, the program puts these chunks and ends with this result. -/
def Emits (f : WriteM ε σ α) (cs : List Bytes) (r : Except ε α) : Prop :=
  ∀ s, f s = emission cs r s

/-- Chunks in two parts: the second part is written if the first one was. -/
theorem writeAll_append (cs ds : List Bytes) (s : σ) :
    (writeAll (cs ++ ds) : WriteM ε σ Unit) s = match (writeAll cs : WriteM ε σ Unit) s with
      | (.ok (), s') => writeAll ds s'
      | (.error e, s') => (.error e, s') := by
  induction cs generalizing s with
  | nil => rfl
  | cons c cs ih =>
      rw [List.cons_append, writeAll, writeAll, bind_run, bind_run]
      rcases (write c : WriteM ε σ Unit) s with ⟨_ | _, s'⟩
      · rfl
      · exact ih s'

/-- A value emits nothing, -/
theorem emits_pure (a : α) : Emits (pure a : WriteM ε σ α) [] (.ok a) := fun _ => rfl

/-- nor does a check, -/
theorem emits_lift (x : Except ε α) : Emits (liftM x : WriteM ε σ α) [] x := fun _ => rfl

/-- and a write emits its bytes. -/
theorem emits_write (b : Bytes) : Emits (write b : WriteM ε σ Unit) [b] (.ok ()) := by
  intro s
  have hall : (writeAll [b] : WriteM ε σ Unit) s = (write b : WriteM ε σ Unit) s := by
    rw [writeAll, bind_run]
    rcases (write b : WriteM ε σ Unit) s with ⟨_ | _, s'⟩ <;> rfl
  rw [emission, hall]
  rcases (write b : WriteM ε σ Unit) s with ⟨_ | _, s'⟩ <;> rfl

/-- After a program that succeeds, the next one adds its chunks. -/
theorem Emits.bind {f : WriteM ε σ α} {g : α → WriteM ε σ γ} {cs ds : List Bytes} {a : α}
    {r : Except ε γ} (hf : Emits f cs (.ok a)) (hg : Emits (g a) ds r) :
    Emits (f >>= g) (cs ++ ds) r := by
  intro s
  rw [bind_run, hf s, emission, emission, writeAll_append]
  rcases (writeAll cs : WriteM ε σ Unit) s with ⟨_ | _, s'⟩
  · rfl
  · exact hg s'

/-- After a program that fails, nothing is added. -/
theorem Emits.bind_error {f : WriteM ε σ α} {g : α → WriteM ε σ γ} {cs : List Bytes} {e : ε}
    (hf : Emits f cs (.error e)) : Emits (f >>= g) cs (.error e) := by
  intro s
  rw [bind_run, hf s, emission, emission]
  rcases (writeAll cs : WriteM ε σ Unit) s with ⟨_ | _, s'⟩ <;> rfl

/-! ## Writers of a byte string -/

/-- **The meaning of a writer**: it writes `w` if `P` holds and fails otherwise. -/
structure Writes (f : WriteM ε σ Unit) (P : Prop) (w : Bytes) : Prop where
  of_valid : P → ∃ cs, cs.flatten = w ∧ Emits f cs (.ok ())
  of_invalid : ¬ P → ∃ cs e, Emits f cs (.error e)

/-- The condition and the bytes may be given in any equivalent way. -/
theorem Writes.congr {f : WriteM ε σ Unit} {P P' : Prop} {w w' : Bytes} (hf : Writes f P w)
    (hP : P' ↔ P) (hw : w' = w) : Writes f P' w' := by
  subst hw
  exact ⟨fun h => hf.of_valid (hP.mp h), fun h => hf.of_invalid fun h' => h (hP.mpr h')⟩

/-- Doing nothing writes nothing, -/
theorem writes_pure : Writes (pure () : WriteM ε σ Unit) True [] :=
  ⟨fun _ => ⟨[], rfl, emits_pure ()⟩, fun h => absurd trivial h⟩

/-- and a write its bytes. -/
theorem writes_write (b : Bytes) : Writes (write b : WriteM ε σ Unit) True b :=
  ⟨fun _ => ⟨[b], by simp, emits_write b⟩, fun h => absurd trivial h⟩

/-- One writer after another. -/
theorem Writes.bind {f g : WriteM ε σ Unit} {P Q : Prop} {u v : Bytes} (hf : Writes f P u)
    (hg : Writes g Q v) : Writes (f >>= fun _ => g) (P ∧ Q) (u ++ v) := by
  constructor
  · intro ⟨hP, hQ⟩
    obtain ⟨cs, rfl, hcs⟩ := hf.of_valid hP
    obtain ⟨ds, rfl, hds⟩ := hg.of_valid hQ
    exact ⟨cs ++ ds, List.flatten_append, hcs.bind hds⟩
  · intro h
    by_cases hP : P
    · obtain ⟨cs, -, hcs⟩ := hf.of_valid hP
      obtain ⟨ds, e, hds⟩ := hg.of_invalid fun hQ => h ⟨hP, hQ⟩
      exact ⟨cs ++ ds, e, hcs.bind hds⟩
    · obtain ⟨cs, e, hcs⟩ := hf.of_invalid hP
      exact ⟨cs, e, hcs.bind_error⟩

/-- A computation that does not touch the sink, before a writer that depends on its value. -/
theorem Writes.lift {x : Except ε α} {g : α → WriteM ε σ Unit} {P : Prop} {w : Bytes}
    (hg : ∀ a, x = .ok a → Writes (g a) P w) :
    Writes (liftM x >>= g) ((∃ a, x = .ok a) ∧ P) w := by
  cases hx : x with
  | error e =>
      constructor
      · rintro ⟨⟨a, ha⟩, -⟩
        cases ha
      · intro _
        exact ⟨[], e, (emits_lift _).bind_error⟩
  | ok a =>
      constructor
      · rintro ⟨-, hP⟩
        obtain ⟨cs, hw, hcs⟩ := (hg a hx).of_valid hP
        exact ⟨cs, hw, (emits_lift _).bind hcs⟩
      · intro h
        obtain ⟨cs, e, hcs⟩ := (hg a hx).of_invalid fun hP => h ⟨⟨a, rfl⟩, hP⟩
        exact ⟨cs, e, (emits_lift _).bind hcs⟩

/-- One writer for each element of a list. -/
theorem Writes.forM {f : α → WriteM ε σ Unit} {P : α → Prop} {enc : α → Bytes}
    (hf : ∀ a, Writes (f a) (P a) (enc a)) (as : List α) :
    Writes (as.forM f) (∀ a ∈ as, P a) (as.flatMap enc) := by
  induction as with
  | nil => exact writes_pure.congr (by simp) rfl
  | cons a as ih => exact ((hf a).bind ih).congr (by simp) (List.flatMap_cons ..)

/-- A writer of an optional part. -/
theorem Writes.optional {f : α → WriteM ε σ Unit} {P : α → Prop} {enc : α → Bytes}
    (hf : ∀ a, Writes (f a) (P a) (enc a)) (o : Option α) :
    Writes (match o with | some a => f a | none => pure ()) (∀ a ∈ o, P a) (o.elim [] enc) := by
  cases o with
  | none => exact writes_pure.congr (by simp) rfl
  | some a => exact (hf a).congr (by simp) rfl

end

/-! ## A sink that only grows -/

/-- A byte string that grows at its end. -/
instance : Sink ε Bytes := ⟨fun b s => (.ok (), s ++ b)⟩

/-- A sink that is a byte string takes everything. -/
theorem writeAll_append_sink (cs : List Bytes) (s : Bytes) :
    (writeAll cs : WriteM ε Bytes Unit) s = (.ok (), s ++ cs.flatten) := by
  induction cs generalizing s with
  | nil => rw [List.flatten_nil, List.append_nil]; rfl
  | cons c cs ih =>
      rw [writeAll, bind_run, List.flatten_cons, ← List.append_assoc]
      exact ih (s ++ c)

/-- A valid writer appends its byte string. -/
theorem Writes.run_append {f : WriteM ε Bytes Unit} {P : Prop} {w : Bytes} (hf : Writes f P w)
    (hP : P) (s : Bytes) : f s = (.ok (), s ++ w) := by
  obtain ⟨cs, rfl, hcs⟩ := hf.of_valid hP
  rw [hcs s, emission, writeAll_append_sink]

/-- An invalid writer fails. -/
theorem Writes.run_append_error {f : WriteM ε Bytes Unit} {P : Prop} {w : Bytes}
    (hf : Writes f P w) (hP : ¬ P) (s : Bytes) : ∃ e s', f s = (.error e, s') := by
  obtain ⟨cs, e, hcs⟩ := hf.of_invalid hP
  exact ⟨e, _, by rw [hcs s, emission, writeAll_append_sink]⟩

end AvmSdk.Wire
