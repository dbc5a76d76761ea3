import AvmSdk.Loop.While
import AvmSdk.Wire.Checked
import AvmSdk.Wire.Leb128

/-!
# The declared memory of a module

The script that certifies a compiled module for deployment walks over its sections and takes the
limits of its linear memory from the one with id 5.

* `memoryLimits`: the walk, as the script makes it, with a bound on the rounds of its loop.
* `Section`, `MemoryContent`, `Declares`: the modules with a memory section, by their bytes.
* `integer_ok_iff`, `sectionLimits_ok_iff`: what the parts of the walk accept.
* `walk_again`, `walk_section`: a round of the walk goes over one section.
-/

namespace AvmSdk.Tools

open Wire Loop

/-- What a script raises. -/
inductive Raised
  | valueError (message : String)
  | indexError

/-- `data[position]`. -/
def byteAt (data : Bytes) (position : ℕ) : Except Raised Byte := okOr data[position]? .indexError

/-- The loop over shifts, with the value and the position so far.
Source: `contract_memory.py` `memory_limits`, `for shift in range(0, 35, 7)` -/
def integerLoop (module : Bytes) (stop : ℕ) : List ℕ → ℕ → ℕ → Except Raised (ℕ × ℕ)
  | [], _, _ => .error (.valueError "invalid WASM integer")
  | shift :: shifts, value, position => do
      failIf (position ≥ stop) (.valueError "truncated WASM integer")
      let byte ← byteAt module position
      let position := position + 1
      failIf (shift = 28 ∧ byte &&& 0xF0 ≠ 0) (.valueError "invalid WASM u32 integer")
      let value := value ||| ((byte &&& 127).toNat <<< shift)
      if byte < 128 then pure (value, position) else integerLoop module stop shifts value position

/-- Source: `contract_memory.py` `memory_limits`, `integer` -/
def integer (module : Bytes) (position stop : ℕ) : Except Raised (ℕ × ℕ) :=
  integerLoop module stop (List.range' 0 5 7) 0 position

/-- The least and the greatest size of a memory in bytes. -/
abbrev Limits := ℕ × Option ℕ

/-- The maximum, if the flags announce one.
Source: `contract_memory.py` `memory_limits`, `if flags == 1` -/
def memoryMaximum (module : Bytes) (flags minimum position stop : ℕ) :
    Except Raised (Option ℕ × ℕ) :=
  if flags = 1 then do
    let (maximum, position) ← integer module position stop
    failIf (minimum > maximum) (.valueError "memory minimum exceeds maximum")
    pure (some maximum, position)
  else pure (none, position)

/-- The content of a section with id 5.
Source: `contract_memory.py` `memory_limits`, from `count, position = integer(start, end)` on -/
def memorySection (module : Bytes) (start stop : ℕ) : Except Raised Limits := do
  let (count, position) ← integer module start stop
  let (flags, position) ← integer module position stop
  failIf (count ≠ 1 ∨ ¬ (flags = 0 ∨ flags = 1))
    (.valueError "expected one unshared 32-bit memory")
  let (minimum, position) ← integer module position stop
  let (maximum, position) ← memoryMaximum module flags minimum position stop
  failIf (position ≠ stop) (.valueError "unexpected memory-section bytes")
  pure (minimum * 65536, maximum.map (· * 65536))

/-- What is known after a section.
Source: `contract_memory.py` `memory_limits`, `if section == 5` -/
def sectionLimits (module : Bytes) (id : Byte) (found : Option Limits) (start stop : ℕ) :
    Except Raised (Option Limits) :=
  if id = 5 then do
    failIf (found.isSome = true) (.valueError "duplicate memory section")
    some <$> memorySection module start stop
  else pure found

/-- A round of the walk over sections, with the limits that were found.
Source: `contract_memory.py` `memory_limits`, `while cursor < len(module)` -/
def walk (module : Bytes) :
    ℕ × Option Limits → Except Raised (Round (ℕ × Option Limits) (Option Limits))
  | (cursor, found) =>
      if cursor < module.length then do
        let id ← byteAt module cursor
        let (length, start) ← integer module (cursor + 1) module.length
        let stop := start + length
        failIf (stop > module.length) (.valueError "truncated WASM section")
        let found ← sectionLimits module id found start stop
        pure (.again (stop, found))
      else pure (.done found)

/-- `b"\0asm\x01\0\0\0"`. -/
def header : Bytes := [0, 97, 115, 109, 1, 0, 0, 0]

/-- Source: `contract_memory.py` `memory_limits` -/
def memoryLimits (module : Bytes) (bound : ℕ) : ExceptT Raised Option Limits :=
  if module.take 8 ≠ header then
    result (.error (.valueError "expected a core WASM module"))
  else do
    let found ← loop (walk module) bound (8, none)
    result (okOr found (.valueError "missing memory section"))

/-! ## Modules with a memory -/

/-- A section of a module, with the writing of its length. -/
structure Section where
  id : Byte
  lengthBytes : Bytes
  content : Bytes
  length_ok : Leb128Below 5 32 content.length lengthBytes

/-- The bytes of a section. -/
def Section.bytes (s : Section) : Bytes := s.id :: (s.lengthBytes ++ s.content)

/-- The length of a section. -/
theorem Section.length_bytes (s : Section) :
    s.bytes.length = 1 + s.lengthBytes.length + s.content.length := by
  rw [Section.bytes, List.length_cons, List.length_append]
  omega

/-- The content of a memory section: one memory, with a minimum and perhaps a maximum. -/
inductive MemoryContent : Bytes → ℕ → Option ℕ → Prop
  | unbounded {count flags minBytes : Bytes} {minimum : ℕ} (hcount : Leb128Below 5 32 1 count)
      (hflags : Leb128Below 5 32 0 flags) (hmin : Leb128Below 5 32 minimum minBytes) :
      MemoryContent (count ++ (flags ++ minBytes)) minimum none
  | bounded {count flags minBytes maxBytes : Bytes} {minimum maximum : ℕ}
      (hcount : Leb128Below 5 32 1 count) (hflags : Leb128Below 5 32 1 flags)
      (hmin : Leb128Below 5 32 minimum minBytes) (hmax : Leb128Below 5 32 maximum maxBytes)
      (hle : minimum ≤ maximum) :
      MemoryContent (count ++ (flags ++ (minBytes ++ maxBytes))) minimum (some maximum)

/-- The limits in bytes of a memory whose limits are given in pages of 64 KiB. -/
def pageLimits (minimum : ℕ) (maximum : Option ℕ) : Limits :=
  (65536 * minimum, maximum.map (65536 * ·))

/-- The module is the header and some sections, of which exactly one has id 5, and this one has
the limits. -/
def Declares (module : Bytes) (minimum : ℕ) (maximum : Option ℕ) : Prop :=
  ∃ (sections : List Section) (memory : Section),
    module = header ++ sections.flatMap Section.bytes ∧
    sections.filter (fun s => s.id = 5) = [memory] ∧ MemoryContent memory.content minimum maximum

/-! ## Integers -/

/-- A byte of the module is read. -/
theorem byteAt_ok {module : Bytes} {p : ℕ} {b : Byte} (h : module[p]? = some b) :
    byteAt module p = .ok b := by
  rw [byteAt, h, okOr_some]

/-- The bits that a fifth byte must not have. -/
theorem and_high_eq_zero_iff (b : Byte) : b &&& 0xF0 = 0 ↔ b.toNat < 16 := by
  revert b
  decide +kernel

/-- The low seven bits of a byte. -/
theorem toNat_and_low (b : Byte) : (b &&& 127).toNat = b.toNat % 128 := by
  rw [BitVec.toNat_and]
  exact Nat.and_two_pow_sub_one_eq_mod b.toNat 7

/-- Seven more bits above a value. -/
theorem or_low_shiftLeft {value shift : ℕ} (h : value < 2 ^ shift) (b : Byte) :
    value ||| ((b &&& 127).toNat <<< shift) = value + 2 ^ shift * (b.toNat % 128) := by
  rw [toNat_and_low, Nat.or_comm, ← Nat.shiftLeft_add_eq_or_of_lt h, Nat.shiftLeft_eq, Nat.add_comm,
    Nat.mul_comm]

/-- Seven more bits stay below the next power. -/
theorem add_mul_mod_lt {value shift : ℕ} (h : value < 2 ^ shift) (b : Byte) :
    value + 2 ^ shift * (b.toNat % 128) < 2 ^ (shift + 7) := by
  have hmod : b.toNat % 128 + 1 ≤ 128 := Nat.mod_lt _ (Nat.succ_pos 127)
  have hmul := Nat.mul_le_mul_left (2 ^ shift) hmod
  rw [Nat.mul_succ] at hmul
  have hpow : 2 ^ (shift + 7) = 2 ^ shift * 128 := Nat.pow_add 2 shift 7
  omega

variable {module : Bytes} {stop : ℕ}

/-- The guard on the fifth byte, where the number ends. -/
theorem fifth_byte_iff {shift k : ℕ} (hk : shift + 7 * (k + 1) = 35) {b : Byte}
    (hb : b.toNat < 128) :
    ¬ (shift = 28 ∧ b &&& 0xF0 ≠ 0) ↔ b.toNat < 2 ^ (7 * (k + 1) - 3) := by
  rw [not_and, not_not, and_high_eq_zero_iff]
  rcases Nat.eq_zero_or_pos k with rfl | hpos
  · have hshift : shift = 28 := by omega
    simp [hshift]
  · have hpow : 2 ^ 7 ≤ 2 ^ (7 * (k + 1) - 3) := Nat.pow_le_pow_right Nat.two_pos (by omega)
    constructor
    · intro _
      omega
    · intro _ hshift
      omega

/-- **The loop over shifts** reads a writing of the bits that are left of 32, of at most the bytes
that are left of five. -/
theorem integerLoop_ok_iff (hstop : stop ≤ module.length) {k shift value p n q : ℕ}
    (hk : shift + 7 * k = 35) (hvalue : value < 2 ^ shift) :
    integerLoop module stop (List.range' shift k 7) value p = .ok (n, q) ↔
      ∃ x, ReadsLeb128 k (7 * k - 3) (ahead module p stop) p x q ∧ n = value + 2 ^ shift * x := by
  induction k generalizing shift value p with
  | zero =>
      simp only [List.range'_zero, integerLoop, not_readsLeb128_zero, false_and, exists_const]
      exact ⟨nofun, False.elim⟩
  | succ k ih =>
      rw [List.range'_succ, integerLoop]
      by_cases hp : p < stop
      · obtain ⟨b, hget, hahead⟩ := ahead_of_lt hp hstop
        rw [hahead, byteAt_ok hget, failIf_bind_ok_iff, ok_bind, failIf_bind_ok_iff,
          or_low_shiftLeft hvalue, and_iff_right (Nat.not_le.mpr hp)]
        by_cases hb : b.toNat < 128
        · rw [fifth_byte_iff hk hb, if_pos (BitVec.lt_def.mpr hb)]
          simp only [readsLeb128_cons_of_lt hb, pure_ok_iff, Prod.mk.injEq, Nat.mod_eq_of_lt hb]
          constructor
          · rintro ⟨hlt, rfl, rfl⟩
            exact ⟨b.toNat, ⟨rfl, rfl, hlt⟩, rfl⟩
          · rintro ⟨_, ⟨rfl, rfl, hlt⟩, rfl⟩
            exact ⟨hlt, rfl, rfl⟩
        · rw [if_neg (fun hlt => hb (BitVec.lt_def.mp hlt))]
          cases k with
          | zero =>
              -- the fifth byte must be the last
              have hhigh : shift = 28 ∧ b &&& 0xF0 ≠ 0 := by
                refine ⟨by omega, fun hzero => ?_⟩
                have := (and_high_eq_zero_iff b).mp hzero
                omega
              simp only [not_readsLeb128_one (Nat.le_of_not_lt hb), hhigh, false_and, exists_const,
                ne_eq, not_false_eq_true, and_self, not_true_eq_false]
          | succ k =>
              have hshift : ¬ (shift = 28 ∧ b &&& 0xF0 ≠ 0) := by omega
              have hw : 7 * (k + 1 + 1) - 3 = 7 * (k + 1) - 3 + 7 := by omega
              have hpow : 2 ^ (shift + 7) = 2 ^ shift * 128 := Nat.pow_add 2 shift 7
              rw [and_iff_right hshift, ih (by omega) (add_mul_mod_lt hvalue b), hw]
              simp only [readsLeb128_cons_of_le (Nat.le_of_not_lt hb), hpow]
              constructor
              · rintro ⟨y, hy, rfl⟩
                refine ⟨_, ⟨y, hy, rfl⟩, ?_⟩
                ring
              · rintro ⟨_, ⟨y, hy, rfl⟩, rfl⟩
                refine ⟨y, hy, ?_⟩
                ring
      · rw [ahead_of_le (Nat.le_of_not_lt hp), failIf, if_pos (Nat.le_of_not_lt hp), error_bind]
        simp only [not_readsLeb128_nil, false_and, exists_const]
        exact ⟨nofun, False.elim⟩

/-- **An integer** is a writing of a `u32` in front of what is left. -/
theorem integer_ok_iff (hstop : stop ≤ module.length) {p n q : ℕ} :
    integer module p stop = .ok (n, q) ↔ ReadsLeb128 5 32 (ahead module p stop) p n q := by
  rw [integer, integerLoop_ok_iff hstop rfl Nat.one_pos]
  simp only [Nat.zero_add, Nat.pow_zero, Nat.one_mul]
  constructor
  · rintro ⟨x, hx, rfl⟩
    exact hx
  · intro h
    exact ⟨n, h, rfl⟩

/-- An integer that was read, and what is left behind it. -/
theorem integer_sound (hstop : stop ≤ module.length) {p n q : ℕ}
    (h : integer module p stop = .ok (n, q)) :
    ∃ u, Leb128Below 5 32 n u ∧ q = p + u.length ∧
      ahead module p stop = u ++ ahead module q stop := by
  obtain ⟨u, rest, hahead, rfl, hu⟩ := (integer_ok_iff hstop).mp h
  refine ⟨u, hu, rfl, ?_⟩
  rw [ahead_add hahead, hahead]

/-- An integer in front is read. -/
theorem integer_complete (hstop : stop ≤ module.length) {p n : ℕ} {u rest : Bytes}
    (hahead : ahead module p stop = u ++ rest) (hu : Leb128Below 5 32 n u) :
    integer module p stop = .ok (n, p + u.length) :=
  (integer_ok_iff hstop).mpr ⟨u, rest, hahead, rfl, hu⟩

/-- Where everything has been read, the position is the end. -/
theorem eq_stop_of_ahead (hstop : stop ≤ module.length) {p : ℕ} {u : Bytes} (hp : p ≤ stop)
    (hahead : ahead module p stop = u) : p + u.length = stop := by
  rw [← hahead, length_ahead hstop]
  omega

/-! ## Sections -/

/-- The limits in pages and in bytes. -/
theorem pageLimits_eq (minimum : ℕ) (maximum : Option ℕ) :
    (minimum * 65536, maximum.map (· * 65536)) = pageLimits minimum maximum := by
  rw [pageLimits, Nat.mul_comm]
  simp only [Nat.mul_comm]

/-- What is accepted as the content of a memory section declares a memory. -/
theorem memorySection_sound {start : ℕ} (hstop : stop ≤ module.length) {limits : Limits}
    (h : memorySection module start stop = .ok limits) : ∃ minimum maximum,
      MemoryContent (ahead module start stop) minimum maximum ∧
      limits = pageLimits minimum maximum := by
  unfold memorySection at h
  simp only [bind_ok_iff, Prod.exists, failIf_ok_iff, exists_const] at h
  obtain ⟨count, q₁, h₁, flags, q₂, h₂, hguard, minimum, q₃, h₃, maximum, q₄, hmax, hend, h⟩ := h
  obtain ⟨u₁, hu₁, rfl, ha₁⟩ := integer_sound hstop h₁
  obtain ⟨u₂, hu₂, rfl, ha₂⟩ := integer_sound hstop h₂
  obtain ⟨u₃, hu₃, rfl, ha₃⟩ := integer_sound hstop h₃
  obtain ⟨rfl, hflags⟩ : count = 1 ∧ (flags = 0 ∨ flags = 1) := by
    rwa [not_or, not_not, not_not] at hguard
  have hnil : ahead module q₄ stop = [] := ahead_of_le (not_not.mp hend).ge
  refine ⟨minimum, maximum, ?_, (pure_ok_iff.mp h).symm.trans (pageLimits_eq minimum maximum)⟩
  rw [ha₁, ha₂, ha₃]
  unfold memoryMaximum at hmax
  rcases hflags with rfl | rfl
  · rw [if_neg Nat.zero_ne_one, pure_ok_iff] at hmax
    cases hmax
    rw [hnil, List.append_nil]
    exact .unbounded hu₁ hu₂ hu₃
  · rw [if_pos rfl] at hmax
    simp only [bind_ok_iff, Prod.exists, failIf_ok_iff, exists_const, pure_ok_iff,
      Prod.mk.injEq] at hmax
    obtain ⟨maximum, q₅, h₄, hle, rfl, rfl⟩ := hmax
    obtain ⟨u₄, hu₄, rfl, ha₄⟩ := integer_sound hstop h₄
    rw [ha₄, hnil, List.append_nil]
    exact .bounded hu₁ hu₂ hu₃ hu₄ (Nat.le_of_not_lt hle)

/-- The content of a memory section that declares a memory is accepted. -/
theorem memorySection_complete {start : ℕ} (hstart : start ≤ stop) (hstop : stop ≤ module.length)
    {minimum : ℕ} {maximum : Option ℕ}
    (h : MemoryContent (ahead module start stop) minimum maximum) :
    memorySection module start stop = .ok (pageLimits minimum maximum) := by
  generalize hcontent : ahead module start stop = content at h
  have hend := eq_stop_of_ahead hstop hstart hcontent
  unfold memorySection
  simp only [bind_ok_iff, Prod.exists, failIf_ok_iff, exists_const, pure_ok_iff, pageLimits_eq]
  cases h with
  | @unbounded u₁ u₂ u₃ _ hu₁ hu₂ hu₃ =>
      have ha₂ := ahead_add hcontent
      have ha₃ := ahead_add ha₂
      rw [← List.append_nil u₃] at ha₃
      simp only [List.length_append, ← Nat.add_assoc] at hend
      refine ⟨1, _, integer_complete hstop hcontent hu₁, 0, _, integer_complete hstop ha₂ hu₂,
        by simp, minimum, _, integer_complete hstop ha₃ hu₃, none, _, rfl, ?_, rfl⟩
      exact not_not.mpr hend
  | @bounded u₁ u₂ u₃ u₄ _ maximum hu₁ hu₂ hu₃ hu₄ hle =>
      have ha₂ := ahead_add hcontent
      have ha₃ := ahead_add ha₂
      have ha₄ := ahead_add ha₃
      rw [← List.append_nil u₄] at ha₄
      simp only [List.length_append, ← Nat.add_assoc] at hend
      have hmax : memoryMaximum module 1 minimum
          (start + u₁.length + u₂.length + u₃.length) stop = .ok (some maximum, stop) := by
        rw [memoryMaximum, if_pos rfl]
        simp only [bind_ok_iff, Prod.exists, failIf_ok_iff, exists_const, pure_ok_iff]
        exact ⟨maximum, _, integer_complete hstop ha₄ hu₄, hle.not_gt, by rw [hend]⟩
      refine ⟨1, _, integer_complete hstop hcontent hu₁, 1, _, integer_complete hstop ha₂ hu₂,
        by simp, minimum, _, integer_complete hstop ha₃ hu₃, some maximum, stop, hmax, ?_, rfl⟩
      exact not_not.mpr rfl

/-- What is known after some sections, from what was known before them. -/
inductive Tells : Option Limits → List Section → Option Limits → Prop
  | nil (found : Option Limits) : Tells found [] found
  | other {s : Section} {sections : List Section} {found found' : Option Limits} (hid : s.id ≠ 5)
      (h : Tells found sections found') : Tells found (s :: sections) found'
  | memory {s : Section} {sections : List Section} {minimum : ℕ} {maximum : Option ℕ}
      {found' : Option Limits} (hid : s.id = 5)
      (hcontent : MemoryContent s.content minimum maximum)
      (h : Tells (some (pageLimits minimum maximum)) sections found') :
      Tells none (s :: sections) found'

/-- What is known after one section, by its content. -/
theorem sectionLimits_ok_iff {start : ℕ} (hstart : start ≤ stop) (hstop : stop ≤ module.length)
    {s : Section} (hcontent : ahead module start stop = s.content) {found found' : Option Limits} :
    sectionLimits module s.id found start stop = .ok found' ↔ Tells found [s] found' := by
  unfold sectionLimits
  by_cases hid : s.id = 5
  · rw [if_pos hid]
    simp only [bind_ok_iff, failIf_ok_iff, exists_const, map_ok_iff]
    constructor
    · rintro ⟨hfound, limits, hlimits, rfl⟩
      obtain rfl : found = none := Option.not_isSome_iff_eq_none.mp hfound
      obtain ⟨minimum, maximum, hmemory, rfl⟩ := memorySection_sound hstop hlimits
      rw [hcontent] at hmemory
      exact .memory hid hmemory (.nil _)
    · intro h
      cases h with
      | other hne => exact absurd hid hne
      | memory _ hmemory hrest =>
          cases hrest
          rw [← hcontent] at hmemory
          exact ⟨by simp, _, memorySection_complete hstart hstop hmemory, rfl⟩
  · rw [if_neg hid, pure_ok_iff]
    constructor
    · rintro rfl
      exact .other hid (.nil _)
    · intro h
      cases h with
      | other _ hrest =>
          cases hrest
          rfl
      | memory hid' => exact absurd hid' hid

/-- **A round** of the walk goes over one section. -/
theorem walk_again {cursor : ℕ} {found : Option Limits} {state : ℕ × Option Limits}
    (h : walk module (cursor, found) = .ok (.again state)) : ∃ s : Section,
      module.drop cursor = s.bytes ++ module.drop state.1 ∧
      state.1 = cursor + s.bytes.length ∧ state.1 ≤ module.length ∧ Tells found [s] state.2 := by
  rw [walk] at h
  split_ifs at h with hlt
  · simp only [bind_ok_iff, Prod.exists, failIf_ok_iff, exists_const, pure_ok_iff] at h
    obtain ⟨id, hid, length, start, hlength, hstop, found', hfound, h⟩ := h
    cases h
    obtain ⟨u, hu, rfl, hahead⟩ := integer_sound le_rfl hlength
    have hle : cursor + 1 + u.length + length ≤ module.length := Nat.le_of_not_lt hstop
    have hcontent : (ahead module (cursor + 1 + u.length)
        (cursor + 1 + u.length + length)).length = length := by
      rw [length_ahead hle, Nat.add_sub_cancel_left]
    obtain ⟨s, rfl, rfl, hs⟩ : ∃ s : Section, s.id = id ∧ s.lengthBytes = u ∧
        s.content = ahead module (cursor + 1 + u.length) (cursor + 1 + u.length + length) :=
      ⟨⟨id, u, _, hcontent.symm ▸ hu⟩, rfl, rfl, rfl⟩
    rw [← hs] at hcontent
    refine ⟨s, ?_, ?_, hle, ?_⟩
    · obtain ⟨b, hb, hcons⟩ := ahead_of_lt hlt le_rfl
      have hbyte : b = s.id := Option.some.inj (hb.symm.trans (okOr_ok_iff.mp hid))
      rw [← ahead_length, hcons, hahead, ← ahead_append_ahead (Nat.le_add_right _ length) hle,
        ahead_length, hbyte, ← hs, Section.bytes, List.cons_append, List.append_assoc]
    · rw [s.length_bytes, hcontent]
      omega
    · exact (sectionLimits_ok_iff (Nat.le_add_right _ _) hle hs.symm).mp hfound
  · cases h

/-- The walk accepts a section that stands at the cursor. -/
theorem walk_section {cursor : ℕ} {found found' : Option Limits} {s : Section} {rest : Bytes}
    (hdrop : module.drop cursor = s.bytes ++ rest) (h : Tells found [s] found') :
    walk module (cursor, found) = .ok (.again (cursor + s.bytes.length, found')) := by
  have hlen := congrArg List.length hdrop
  rw [List.length_drop, List.length_append, s.length_bytes] at hlen
  have hlt : cursor < module.length := by omega
  obtain ⟨b, hget, hcons⟩ := ahead_of_lt hlt le_rfl
  rw [ahead_length, hdrop, Section.bytes, List.cons_append, List.append_assoc] at hcons
  obtain ⟨rfl, hahead⟩ := List.cons.inj hcons
  have hcontent := ahead_add hahead.symm
  have hle : cursor + 1 + s.lengthBytes.length + s.content.length ≤ module.length := by omega
  have hstop : cursor + s.bytes.length =
      cursor + 1 + s.lengthBytes.length + s.content.length := by
    rw [s.length_bytes]
    omega
  rw [walk, if_pos hlt, hstop]
  simp only [bind_ok_iff, Prod.exists, failIf_ok_iff, exists_const, pure_ok_iff]
  refine ⟨s.id, byteAt_ok hget, s.content.length, _,
    integer_complete le_rfl hahead.symm s.length_ok, Nat.not_lt.mpr hle, found', ?_, rfl⟩
  exact (sectionLimits_ok_iff (Nat.le_add_right _ _) hle (ahead_take hcontent hle)).mpr h

end AvmSdk.Tools
