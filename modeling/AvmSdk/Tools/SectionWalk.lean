import AvmSdk.Tools.ContractMemory

/-!
# What the walk over sections accepts

* `walk_ends_iff`, `exists_walk_ends`: the walk ends, and ends well exactly over what consists of
  sections.
* `tells_none_iff`: sections tell limits when exactly one of them is a memory section.
* `raises_walk`: the walk raises value errors only, hence never reads outside the module.
* `memoryLimits_exact`: the limits of a module, exactly when it declares a memory.
-/

namespace AvmSdk.Tools

open Wire Loop

variable {module : Bytes} {stop : ℕ}

/-! ## Sections one after another -/

/-- The sections one after another. -/
theorem tells_cons_iff {found found' : Option Limits} {s : Section} {sections : List Section} :
    Tells found (s :: sections) found' ↔
      ∃ known, Tells found [s] known ∧ Tells known sections found' := by
  constructor
  · intro h
    cases h with
    | other hid h => exact ⟨_, .other hid (.nil _), h⟩
    | memory hid hcontent h => exact ⟨_, .memory hid hcontent (.nil _), h⟩
  · rintro ⟨known, hfirst, h⟩
    cases hfirst with
    | other hid hnil =>
        cases hnil
        exact .other hid h
    | memory hid hcontent hnil =>
        cases hnil
        exact .memory hid hcontent h

/-- The walk is done at the end of the module. -/
theorem walk_done_iff {cursor : ℕ} {found found' : Option Limits} :
    walk module (cursor, found) = .ok (.done found') ↔
      module.length ≤ cursor ∧ found' = found := by
  rw [walk]
  split_ifs with hlt
  · simp only [bind_ok_iff, pure_ok_iff, reduceCtorEq, and_false, exists_false,
      false_iff, not_and]
    omega
  · rw [pure_ok_iff, Round.done.injEq, eq_comm, and_iff_right (Nat.le_of_not_lt hlt)]

/-- **The walk** ends well exactly over what consists of sections, with what these tell. -/
theorem walk_ends_iff {cursor : ℕ} {found found' : Option Limits} :
    Ends (walk module) (cursor, found) (.ok found') ↔ ∃ sections : List Section,
      module.drop cursor = sections.flatMap Section.bytes ∧ Tells found sections found' := by
  constructor
  · intro h
    generalize hstate : (cursor, found) = state at h
    generalize hr : (Except.ok found' : Except Raised (Option Limits)) = r at h
    induction h generalizing cursor found with
    | error h => cases hr
    | done h =>
        cases hr
        rw [← hstate, walk_done_iff] at h
        refine ⟨[], List.drop_eq_nil_of_le h.1, ?_⟩
        rw [h.2]
        exact .nil found
    | again h _ ih =>
        rw [← hstate] at h
        obtain ⟨s, hdrop, -, -, hfirst⟩ := walk_again h
        obtain ⟨sections, hrest, hsections⟩ := ih rfl hr
        refine ⟨s :: sections, ?_, tells_cons_iff.mpr ⟨_, hfirst, hsections⟩⟩
        rw [hdrop, hrest, List.flatMap_cons]
  · rintro ⟨sections, hdrop, h⟩
    induction sections generalizing cursor found with
    | nil =>
        cases h
        exact .done (walk_done_iff.mpr ⟨List.drop_eq_nil_iff.mp hdrop, rfl⟩)
    | cons s sections ih =>
        obtain ⟨known, hfirst, hrest⟩ := tells_cons_iff.mp h
        rw [List.flatMap_cons] at hdrop
        refine .again (walk_section hdrop hfirst) (ih ?_ hrest)
        rw [← List.drop_drop, hdrop, List.drop_left]

/-- The walk ends. -/
theorem exists_walk_ends (module : Bytes) (state : ℕ × Option Limits) :
    ∃ r, Ends (walk module) state r := by
  refine exists_ends (fun _ => True) (fun state => module.length - state.1) ?_ trivial
  rintro ⟨cursor, found⟩ state - h
  obtain ⟨s, -, hcursor, hle, -⟩ := walk_again h
  rw [s.length_bytes] at hcursor
  refine ⟨trivial, ?_⟩
  show module.length - state.1 < module.length - cursor
  omega

/-! ## What is told -/

/-- Behind a memory section there is no other. -/
theorem tells_some_iff {limits : Limits} {sections : List Section} {found' : Option Limits} :
    Tells (some limits) sections found' ↔
      sections.filter (fun s => s.id = 5) = [] ∧ found' = some limits := by
  induction sections with
  | nil =>
      constructor
      · intro h
        cases h
        exact ⟨rfl, rfl⟩
      · rintro ⟨-, rfl⟩
        exact .nil _
  | cons s sections ih =>
      constructor
      · intro h
        cases h with
        | other hid h =>
            rw [List.filter_cons_of_neg (by simpa using hid)]
            exact ih.mp h
      · rintro ⟨hfilter, rfl⟩
        have hid : s.id ≠ 5 := by
          rintro hid
          rw [List.filter_cons_of_pos (by simpa using hid)] at hfilter
          cases hfilter
        rw [List.filter_cons_of_neg (by simpa using hid)] at hfilter
        exact .other hid (ih.mpr ⟨hfilter, rfl⟩)

/-- The sections tell limits exactly when one of them, and no other, is a memory section. -/
theorem tells_none_iff {sections : List Section} {limits : Limits} :
    Tells none sections (some limits) ↔ ∃ memory minimum maximum,
      sections.filter (fun s => s.id = 5) = [memory] ∧
      MemoryContent memory.content minimum maximum ∧ limits = pageLimits minimum maximum := by
  induction sections with
  | nil =>
      constructor
      · intro h
        cases h
      · rintro ⟨memory, _, _, hnil, -⟩
        cases hnil
  | cons s sections ih =>
      by_cases hid : s.id = 5
      · rw [List.filter_cons_of_pos (by simpa using hid)]
        constructor
        · intro h
          cases h with
          | other hne => exact absurd hid hne
          | memory _ hcontent h =>
              obtain ⟨hnone, hsome⟩ := tells_some_iff.mp h
              rw [hnone]
              exact ⟨s, _, _, rfl, hcontent, Option.some.inj hsome⟩
        · rintro ⟨memory, minimum, maximum, hfilter, hcontent, rfl⟩
          obtain ⟨rfl, hnone⟩ := List.cons.inj hfilter
          exact .memory hid hcontent (tells_some_iff.mpr ⟨hnone, rfl⟩)
      · rw [List.filter_cons_of_neg (by simpa using hid), ← ih]
        constructor
        · intro h
          cases h with
          | other _ h => exact h
          | memory hid' => exact absurd hid' hid
        · exact fun h => .other hid h

/-! ## Errors -/

/-- The errors that the script reports. -/
def IsValueError (e : Raised) : Prop := ∃ message, e = .valueError message

/-- A value error is one. -/
theorem isValueError (message : String) : IsValueError (.valueError message) := ⟨message, rfl⟩

/-- A byte inside the module is there. -/
theorem raises_byteAt {p : ℕ} (h : p < module.length) : Raises (byteAt module p) IsValueError :=
  raises_of_ok ⟨module[p], byteAt_ok (List.getElem?_eq_getElem h)⟩

/-- The loop over shifts reads before the end only. -/
theorem raises_integerLoop (hstop : stop ≤ module.length) (shifts : List ℕ) (value p : ℕ) :
    Raises (integerLoop module stop shifts value p) IsValueError := by
  induction shifts generalizing value p with
  | nil => exact raises_error (isValueError _)
  | cons shift shifts ih =>
      rw [integerLoop]
      refine (raises_failIf fun _ => isValueError _).bind fun _ hp => ?_
      have hlt : p < stop := Nat.lt_of_not_le (failIf_ok_iff.mp hp)
      refine (raises_byteAt (hlt.trans_le hstop)).bind fun b _ => ?_
      refine (raises_failIf fun _ => isValueError _).bind fun _ _ => ?_
      exact Raises.ite (fun _ => raises_pure _) (fun _ => ih _ _)

/-- Reading an integer raises value errors only, -/
theorem raises_integer (hstop : stop ≤ module.length) (p : ℕ) :
    Raises (integer module p stop) IsValueError :=
  raises_integerLoop hstop _ _ _

/-- and so does reading the memory section. -/
theorem raises_memorySection (hstop : stop ≤ module.length) (start : ℕ) :
    Raises (memorySection module start stop) IsValueError := by
  unfold memorySection
  refine (raises_integer hstop _).bind fun _ _ => ?_
  refine (raises_integer hstop _).bind fun _ _ => ?_
  refine (raises_failIf fun _ => isValueError _).bind fun _ _ => ?_
  refine (raises_integer hstop _).bind fun _ _ => ?_
  refine Raises.bind ?_ fun _ _ => (raises_failIf fun _ => isValueError _).bind fun _ _ =>
    raises_pure _
  refine Raises.ite (fun _ => ?_) (fun _ => raises_pure _)
  refine (raises_integer hstop _).bind fun _ _ => ?_
  exact (raises_failIf fun _ => isValueError _).bind fun _ _ => raises_pure _

/-- **A round** of the walk raises value errors only: it never reads outside the module. -/
theorem raises_walk (state : ℕ × Option Limits) : Raises (walk module state) IsValueError := by
  obtain ⟨cursor, found⟩ := state
  rw [walk]
  refine Raises.ite (fun hlt => ?_) (fun _ => raises_pure _)
  refine (raises_byteAt hlt).bind fun _ _ => ?_
  refine (raises_integer le_rfl _).bind fun _ _ => ?_
  refine (raises_failIf fun _ => isValueError _).bind fun _ hstop => ?_
  have hle := Nat.le_of_not_lt (failIf_ok_iff.mp hstop)
  refine Raises.bind ?_ fun _ _ => raises_pure _
  refine Raises.ite (fun _ => ?_) (fun _ => raises_pure _)
  exact (raises_failIf fun _ => isValueError _).bind fun _ _ =>
    (raises_memorySection hle _).map _

/-- The walk ends with limits or with a value error. -/
theorem raises_of_walk_ends {state : ℕ × Option Limits} {r : Except Raised (Option Limits)}
    (h : Ends (walk module) state r) : Raises r IsValueError := by
  apply h.invariant (fun _ => True) (fun r => Raises r IsValueError) (fun _ _ _ _ => trivial)
  case hdone => exact fun _ a _ _ => raises_ok a
  case herror => exact fun s e _ he => raises_error (raises_walk s e he)
  case hs => exact trivial

/-! ## The limits of a module -/

/-- What consists of the header and of what follows it. -/
theorem eq_header_append (h : module.take 8 = header) : module = header ++ module.drop 8 := by
  rw [← h, List.take_append_drop]

/-- A module declares a memory exactly when it begins with the header and its sections tell the
limits. -/
theorem declares_iff {limits : Limits} :
    (∃ minimum maximum, Declares module minimum maximum ∧ limits = pageLimits minimum maximum) ↔
      module.take 8 = header ∧ ∃ sections : List Section,
        module.drop 8 = sections.flatMap Section.bytes ∧ Tells none sections (some limits) := by
  constructor
  · rintro ⟨minimum, maximum, ⟨sections, memory, rfl, hfilter, hcontent⟩, rfl⟩
    exact ⟨rfl, sections, rfl, tells_none_iff.mpr ⟨memory, _, _, hfilter, hcontent, rfl⟩⟩
  · rintro ⟨hheader, sections, hdrop, htells⟩
    obtain ⟨memory, minimum, maximum, hfilter, hcontent, rfl⟩ := tells_none_iff.mp htells
    refine ⟨minimum, maximum, ⟨sections, memory, ?_, hfilter, hcontent⟩, rfl⟩
    rw [← hdrop]
    exact eq_header_append hheader

/-- **The declared memory of a module.** For every byte string the script ends: it raises a value
error, and never reads outside the module, or it returns limits. It returns them exactly when the
module is the header and sections that cover the rest, one of them, and no other, with id 5, whose
content declares one memory with these limits. -/
theorem memoryLimits_exact (module : Bytes) : ∃ r, Halts (memoryLimits module) r ∧
    (∀ e, r = .error e → ∃ message, e = .valueError message) ∧
    ∀ limits, r = .ok limits ↔
      ∃ minimum maximum, Declares module minimum maximum ∧ limits = pageLimits minimum maximum := by
  by_cases hheader : module.take 8 = header
  · obtain ⟨r, hends⟩ := exists_walk_ends module (8, none)
    have hraises := raises_of_walk_ends hends
    have hrun : memoryLimits module = fun bound => loop (walk module) bound (8, none) >>=
        fun found => result (okOr found (.valueError "missing memory section")) :=
      funext fun _ => if_neg (not_not.mpr hheader)
    simp only [declares_iff, hheader, true_and, ← walk_ends_iff]
    rw [hrun]
    cases r with
    | error e =>
        refine ⟨_, hends.halts.bind_error, ?_, fun limits => ⟨nofun, fun h => ?_⟩⟩
        · rintro e' ⟨⟩
          exact hraises e rfl
        · cases hends.halts.unique h.halts
    | ok found =>
        refine ⟨_, hends.halts.bind (halts_result _), ?_, fun limits => ?_⟩
        · exact raises_okOr fun _ => isValueError _
        · rw [okOr_ok_iff]
          constructor
          · rintro rfl
            exact hends
          · intro h
            exact Except.ok.inj (hends.halts.unique h.halts)
  · refine ⟨_, ⟨0, fun _ _ => if_pos hheader⟩, ?_, fun limits => ?_⟩
    · rintro e ⟨⟩
      exact isValueError _
    · rw [declares_iff]
      simp only [hheader, false_and, reduceCtorEq]

/-- A memory of two pages that may grow to three, behind another section. -/
example : memoryLimits (header ++ [1, 2, 9, 9, 5, 0x84, 0, 1, 1, 2, 3]) 3 =
    some (.ok (131072, some 196608)) := rfl

end AvmSdk.Tools
