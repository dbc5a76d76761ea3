import AvmSdk.Wire.SelfDelimiting
import Mathlib.Logic.Equiv.Defs

/-!
# Fixed-width records

A record format of one width is a bijection between the values of a type and the words of that
width. Formats are built from words and byte arrays by pairing and by renaming along a bijection,
so that a record with named fields gets its format from the formats of the fields.

* `FixedWidth β α`, with `FixedWidth.word`, `FixedWidth.array`, `FixedWidth.prod` and
  `FixedWidth.equiv`.
* `FixedWidth.selfDelimiting`: a fixed-width encoding determines its end.
* `FixedWidth.exists_flatMap`: a word whose length is a multiple of the width is a sequence of
  records; `FixedWidth.exists_append`: a longer word begins with a record.
-/

namespace AvmSdk.Wire

variable {α β γ : Type}

/-- A bijection between the values of a type and the words of one positive width. -/
structure FixedWidth (β α : Type) where
  /-- The number of symbols of a record. -/
  width : ℕ
  /-- Write a record. -/
  enc : α → List β
  /-- Read a record. -/
  dec : List β → α
  width_pos : 0 < width
  length_enc : ∀ a, (enc a).length = width
  dec_enc : ∀ a, dec (enc a) = a
  enc_dec : ∀ bs, bs.length = width → enc (dec bs) = bs

namespace FixedWidth

variable (c : FixedWidth β α)

/-- Writing records is injective. -/
theorem enc_inj {a b : α} (h : c.enc a = c.enc b) : a = b := by
  rw [← c.dec_enc a, ← c.dec_enc b, h]

/-- A fixed-width encoding is self-delimiting. -/
theorem selfDelimiting : SelfDelimiting (fun _ => True) c.enc := by
  intro a b s t _ _ h
  obtain ⟨hab, hst⟩ := append_inj_of_length (by rw [c.length_enc, c.length_enc]) h
  exact ⟨c.enc_inj hab, hst⟩

/-- The length of a sequence of records. -/
@[simp] theorem length_flatMap_enc (as : List α) :
    (as.flatMap c.enc).length = as.length * c.width := by
  induction as with
  | nil => simp
  | cons a as ih =>
      rw [List.flatMap_cons, List.length_append, c.length_enc, ih, List.length_cons]
      ring

/-- Every word of the length of `n` records is a sequence of `n` records. -/
theorem exists_flatMap {n : ℕ} (bs : List β) (h : bs.length = n * c.width) :
    ∃ as : List α, as.length = n ∧ as.flatMap c.enc = bs := by
  induction n generalizing bs with
  | zero =>
      have hnil : bs = [] := List.eq_nil_of_length_eq_zero (by simpa using h)
      exact ⟨[], rfl, by rw [hnil, List.flatMap_nil]⟩
  | succ n ih =>
      have hlen : bs.length = n * c.width + c.width := by rw [h]; ring
      obtain ⟨as, has, hbs⟩ := ih (bs.drop c.width) (by rw [List.length_drop]; omega)
      refine ⟨c.dec (bs.take c.width) :: as, by rw [List.length_cons, has], ?_⟩
      have htake : (bs.take c.width).length = c.width := by rw [List.length_take]; omega
      rw [List.flatMap_cons, hbs, c.enc_dec _ htake, List.take_append_drop]

/-- A word at least as long as a record begins with a record. -/
theorem exists_append (bs : List β) (h : c.width ≤ bs.length) :
    ∃ a rest, bs = c.enc a ++ rest := by
  refine ⟨c.dec (bs.take c.width), bs.drop c.width, ?_⟩
  have htake : (bs.take c.width).length = c.width := by rw [List.length_take]; omega
  rw [c.enc_dec _ htake, List.take_append_drop]

/-- Two formats one after the other. -/
def prod (d : FixedWidth β γ) : FixedWidth β (α × γ) where
  width := c.width + d.width
  enc x := c.enc x.1 ++ d.enc x.2
  dec bs := (c.dec (bs.take c.width), d.dec (bs.drop c.width))
  width_pos := Nat.add_pos_left c.width_pos _
  length_enc x := by rw [List.length_append, c.length_enc, d.length_enc]
  dec_enc x := by
    rw [List.take_left' (c.length_enc _), List.drop_left' (c.length_enc _), c.dec_enc, d.dec_enc]
  enc_dec bs h := by
    rw [c.enc_dec _ (by rw [List.length_take]; omega), d.enc_dec _ (by rw [List.length_drop]; omega),
      List.take_append_drop]

/-- A format for the values of a type in bijection with the records. -/
def equiv (e : α ≃ γ) : FixedWidth β γ where
  width := c.width
  enc x := c.enc (e.symm x)
  dec bs := e (c.dec bs)
  width_pos := c.width_pos
  length_enc x := c.length_enc _
  dec_enc x := by rw [c.dec_enc, e.apply_symm_apply]
  enc_dec bs h := by rw [e.symm_apply_apply, c.enc_dec bs h]

end FixedWidth

/-- The little-endian words of `w` bits. -/
def FixedWidth.word (w : ℕ) (hw : 8 ∣ w) (hpos : 0 < w) : FixedWidth Byte (BitVec w) where
  width := w / 8
  enc := toLe
  dec := ofLe w
  width_pos := Nat.div_pos (Nat.le_of_dvd hpos hw) (by norm_num)
  length_enc := length_toLe
  dec_enc := ofLe_toLe hw
  enc_dec bs h := toLe_ofLe (by rw [h, Nat.mul_div_cancel' hw])

/-! The words of the usual widths. -/

/-- One byte. -/
abbrev word8 : FixedWidth Byte (BitVec 8) := .word 8 (by norm_num) (by norm_num)
/-- Two bytes. -/
abbrev word16 : FixedWidth Byte (BitVec 16) := .word 16 (by norm_num) (by norm_num)
/-- Four bytes. -/
abbrev word32 : FixedWidth Byte (BitVec 32) := .word 32 (by norm_num) (by norm_num)
/-- Eight bytes. -/
abbrev word64 : FixedWidth Byte (BitVec 64) := .word 64 (by norm_num) (by norm_num)
/-- Sixteen bytes. -/
abbrev word128 : FixedWidth Byte (BitVec 128) := .word 128 (by norm_num) (by norm_num)

/-- The arrays of `n` bytes. -/
def FixedWidth.array (n : ℕ) (hn : 0 < n) : FixedWidth Byte (BytesN n) where
  width := n
  enc := Subtype.val
  dec bs := if h : bs.length = n then ⟨bs, h⟩ else zeros n
  width_pos := hn
  length_enc := Subtype.property
  dec_enc a := by rw [dif_pos a.property]
  enc_dec bs h := by rw [dif_pos h]

end AvmSdk.Wire
