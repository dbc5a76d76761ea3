import AvmSdk.Sdk.Runtime.Hosting

/-!
# Test vectors

The check of a module against vectors: a text with one row a line, and in a row a name, an entry
point, an input and the output that is expected, the last two in hexadecimal.

* `decodeHex_ok_iff`: the decoder accepts the digits of a byte string, in either case.
* `rowsOf_printRows`: rows of words that were printed are read back.
* `messageExports`: what the export macros install.
* `checkVectors_ok_iff`: the check passes exactly when every row is right and fits into the arena.
-/

namespace AvmSdk.Tools

open Wire Sdk

/-! ## Hexadecimal -/

/-- Why a row is refused. Source: `guest_abi.rs` `check_vectors` -/
inductive VectorError
  | imports
  | oddHexadecimalLength
  | invalidHexadecimal
  | fields
  | entrypointExport
  | host (error : HostError)
  | outputMismatch
  | emptyInput
deriving DecidableEq

/-- `char::to_digit(16)`. -/
def toDigit (c : U8) : Option U8 :=
  if 48 ≤ c ∧ c ≤ 57 then some (c - 48)
  else if 97 ≤ c ∧ c ≤ 102 then some (c - 87)
  else if 65 ≤ c ∧ c ≤ 70 then some (c - 55)
  else none

/-- The pairs of digits. -/
def decodePairs : Bytes → Except VectorError Bytes
  | high :: low :: rest => do
      let high ← okOr (toDigit high) .invalidHexadecimal
      let low ← okOr (toDigit low) .invalidHexadecimal
      let rest ← decodePairs rest
      pure ((high <<< 4 ||| low) :: rest)
  | _ => pure []

/-- Source: `guest_abi.rs` `decode_hex` -/
def decodeHex (text : Bytes) : Except VectorError Bytes := do
  failIf (text.length % 2 ≠ 0) .oddHexadecimalLength
  decodePairs text

/-- A digit as it is printed. -/
def hexDigit (d : U8) : U8 := if d < 10 then d + 48 else d + 87

/-- Source: `audit_mode_vectors.rs` `hex` -/
def hex (bytes : Bytes) : Bytes := bytes.flatMap fun b : U8 => [hexDigit (b >>> 4), hexDigit (b &&& 15)]

/-- A letter in lower case. -/
def toLower (c : U8) : U8 := if 65 ≤ c ∧ c ≤ 90 then c + 32 else c

/-- A digit is read in either case. -/
theorem toDigit_eq_some_iff {c d : U8} : toDigit c = some d ↔ d < 16 ∧ hexDigit d = toLower c := by
  have hread : ∀ c : U8, (toDigit c).all fun d => d < 16 ∧ hexDigit d = toLower c := by decide +kernel
  have hprinted : ∀ d : U8, d < 16 → toDigit (hexDigit d) = some d := by decide +kernel
  have hlower : ∀ c : U8, (toDigit (toLower c)).isSome → toDigit c = toDigit (toLower c) := by
    decide +kernel
  constructor
  · intro h
    have hall := hread c
    rw [h] at hall
    exact of_decide_eq_true hall
  · rintro ⟨hd, heq⟩
    have hsome : toDigit (toLower c) = some d := by rw [← heq, hprinted d hd]
    rw [hlower c (by rw [hsome]; rfl), hsome]

/-- Two digits of a byte. -/
theorem nibbles_iff {high low b : U8} :
    high < 16 ∧ low < 16 ∧ high <<< 4 ||| low = b ↔ high = b >>> 4 ∧ low = b &&& 15 := by
  have hsplit : ∀ b : U8, b >>> 4 < 16 ∧ b &&& 15 < 16 ∧ (b >>> 4) <<< 4 ||| (b &&& 15) = b := by
    decide +kernel
  have hhalf : ∀ d : U8, d < 16 → d <<< 4 >>> 4 = d ∧ d <<< 4 &&& 15 = 0 ∧ d >>> 4 = 0 ∧ d &&& 15 = d := by
    decide +kernel
  constructor
  · rintro ⟨hhigh, hlow, rfl⟩
    obtain ⟨hshift, hclear, -, -⟩ := hhalf high hhigh
    obtain ⟨-, -, hgone, hkept⟩ := hhalf low hlow
    constructor
    · rw [BitVec.ushiftRight_or_distrib, hshift, hgone]
      exact BitVec.or_zero.symm
    · rw [BitVec.and_or_distrib_right, hclear, hkept]
      exact BitVec.zero_or.symm
  · rintro ⟨rfl, rfl⟩
    exact hsplit b

/-- What is printed for a first byte. -/
theorem hex_cons (b : U8) (bytes : Bytes) :
    hex (b :: bytes) = hexDigit (b >>> 4) :: hexDigit (b &&& 15) :: hex bytes := rfl

/-- The pairs of digits of a byte string, in either case. -/
theorem decodePairs_ok_iff {text bytes : Bytes} (heven : text.length % 2 = 0) :
    decodePairs text = .ok bytes ↔ text.map toLower = hex bytes := by
  fun_induction decodePairs text generalizing bytes with
  | case1 high low rest ih =>
      have heven' : rest.length % 2 = 0 := by
        rw [List.length_cons, List.length_cons] at heven
        omega
      simp only [bind_ok_iff, okOr_ok_iff, toDigit_eq_some_iff, pure_ok_iff, List.map_cons]
      constructor
      · rintro ⟨h, ⟨hh, hhigh⟩, l, ⟨hl, hlow⟩, bytes', hrest, rfl⟩
        obtain ⟨hh', hl'⟩ := nibbles_iff.mp ⟨hh, hl, rfl⟩
        rw [hex_cons, ← hh', ← hl', hhigh, hlow, (ih heven').mp hrest]
      · intro heq
        cases bytes with
        | nil => cases heq
        | cons b bytes =>
            rw [hex_cons, List.cons.injEq, List.cons.injEq] at heq
            obtain ⟨hhigh, hlow, hrest⟩ := heq
            obtain ⟨hh, hl, hb⟩ := nibbles_iff.mpr ⟨rfl, rfl⟩
            exact ⟨b >>> 4, ⟨hh, hhigh.symm⟩, b &&& 15, ⟨hl, hlow.symm⟩, bytes,
              (ih heven').mpr hrest, by rw [hb]⟩
  | case2 text htext =>
      -- an even number of characters, and no pair
      have hnil : text = [] := by
        cases text with
        | nil => rfl
        | cons c rest =>
            cases rest with
            | nil => cases heven
            | cons c' rest => exact absurd rfl (htext c c' rest)
      subst hnil
      rw [pure_ok_iff]
      constructor
      · rintro rfl
        rfl
      · intro heq
        cases bytes with
        | nil => rfl
        | cons b bytes => cases heq

/-- **The decoder** accepts exactly the printed byte strings, with letters in either case. -/
theorem decodeHex_ok_iff {text bytes : Bytes} :
    decodeHex text = .ok bytes ↔ text.map toLower = hex bytes := by
  have hlength : ∀ bytes : Bytes, (hex bytes).length = 2 * bytes.length := by
    intro bytes
    induction bytes with
    | nil => rfl
    | cons b bytes ih =>
        rw [hex_cons, List.length_cons, List.length_cons, ih, List.length_cons]
        omega
  unfold decodeHex
  rw [failIf_bind_ok_iff, not_not]
  constructor
  · rintro ⟨heven, hdecode⟩
    exact (decodePairs_ok_iff heven).mp hdecode
  · intro heq
    have heven : text.length % 2 = 0 := by
      rw [← List.length_map (f := toLower), heq, hlength]
      omega
    exact ⟨heven, (decodePairs_ok_iff heven).mpr heq⟩

/-! ## Rows of a text -/

/-- `char::is_whitespace`. -/
def isWhitespace (c : Char) : Bool :=
  9 ≤ c.toNat ∧ c.toNat ≤ 13 ∨ 0x2000 ≤ c.toNat ∧ c.toNat ≤ 0x200a ∨
    c.toNat ∈ [0x20, 0x85, 0xa0, 0x1680, 0x2028, 0x2029, 0x202f, 0x205f, 0x3000]

/-- `str::trim`. -/
def trim (text : List Char) : List Char :=
  ((text.dropWhile isWhitespace).reverse.dropWhile isWhitespace).reverse

/-- A line that ended without its end. -/
def stripReturn (line : List Char) : List Char :=
  if line.getLast? = some '\r' then line.dropLast else line

/-- `str::lines`: what stands behind the last end of a line is a line if it is not empty. -/
def lines (text : List Char) : List (List Char) :=
  let parts := text.splitOn '\n'
  parts.dropLast.map stripReturn ++ parts.getLast?.toList.filter (· ≠ [])

/-- The fields of the rows. Source: `guest_abi.rs` `check_vectors`, `vectors.trim().lines()` and
`row.split('\t')` -/
def rowsOf (text : String) : List (List Bytes) :=
  (lines (trim text.toList)).map fun row =>
    (row.splitOn '\t').map fun field => asBytes (String.ofList field)

/-- The line of a row. -/
def lineOf (row : List String) : List Char := ['\t'].intercalate (row.map String.toList)

/-- The rows as a text. Source: `audit_mode_vectors.rs` `main`, `println!` -/
def printRows (rows : List (List String)) : String :=
  String.ofList (rows.flatMap fun row => lineOf row ++ ['\n'])

/-- A word has a character, and no white space. -/
def IsWord (field : String) : Prop := field.toList ≠ [] ∧ ∀ c ∈ field.toList, isWhitespace c = false

/-- A row of words. -/
def IsRow (row : List String) : Prop := row ≠ [] ∧ ∀ field ∈ row, IsWord field

/-- A text that starts and ends with a character that is not white space. -/
structure Solid (text : List Char) : Prop where
  first : ∃ c rest, text = c :: rest ∧ isWhitespace c = false
  last : ∃ rest c, text = rest ++ [c] ∧ isWhitespace c = false

/-- A word is solid. -/
theorem IsWord.solid {field : String} (h : IsWord field) : Solid field.toList := by
  obtain ⟨hne, hsolid⟩ := h
  constructor
  · obtain ⟨c, rest, htext⟩ := List.exists_cons_of_ne_nil hne
    exact ⟨c, rest, htext, hsolid c (htext ▸ List.mem_cons_self)⟩
  · refine ⟨field.toList.dropLast, field.toList.getLast hne, ?_, hsolid _ (List.getLast_mem hne)⟩
    exact (List.dropLast_append_getLast hne).symm

/-- Two solid texts around anything are a solid text. -/
theorem Solid.append {text more : List Char} (h : Solid text) (middle : List Char) (h' : Solid more) :
    Solid (text ++ middle ++ more) := by
  obtain ⟨c, rest, rfl, hc⟩ := h.first
  obtain ⟨rest', d, rfl, hd⟩ := h'.last
  exact ⟨⟨c, rest ++ middle ++ (rest' ++ [d]), rfl, hc⟩,
    ⟨c :: rest ++ middle ++ rest', d, (List.append_assoc ..).symm, hd⟩⟩

/-- Some solid texts with a separator between them are a solid text. -/
theorem solid_intercalate {sep : List Char} {texts : List (List Char)} (hne : texts ≠ [])
    (h : ∀ text ∈ texts, Solid text) : Solid (sep.intercalate texts) := by
  induction texts with
  | nil => exact absurd rfl hne
  | cons text texts ih =>
      have htext := h text List.mem_cons_self
      by_cases hrest : texts = []
      · rw [hrest, List.intercalate_singleton]
        exact htext
      · rw [List.intercalate_cons_of_ne_nil hrest]
        exact htext.append sep (ih hrest fun t ht => h t (List.mem_cons_of_mem _ ht))

/-- A character of the whole is one of the separator or of a text. -/
theorem mem_of_mem_intercalate {sep : List Char} {texts : List (List Char)} {c : Char}
    (hc : c ∈ sep.intercalate texts) : c ∈ sep ∨ ∃ text ∈ texts, c ∈ text := by
  induction texts with
  | nil => cases hc
  | cons text texts ih =>
      by_cases hrest : texts = []
      · rw [hrest, List.intercalate_singleton] at hc
        exact .inr ⟨text, List.mem_cons_self, hc⟩
      · rw [List.intercalate_cons_of_ne_nil hrest, List.mem_append, List.mem_append] at hc
        rcases hc with (htext | hsep) | hmore
        · exact .inr ⟨text, List.mem_cons_self, htext⟩
        · exact .inl hsep
        · exact (ih hmore).imp_right fun ⟨t, ht, hct⟩ => ⟨t, List.mem_cons_of_mem _ ht, hct⟩

/-- The end of the last line is trimmed. -/
theorem trim_solid {text : List Char} (h : Solid text) : trim (text ++ ['\n']) = text := by
  have hfirst : (text ++ ['\n']).dropWhile isWhitespace = text ++ ['\n'] := by
    obtain ⟨c, rest, rfl, hc⟩ := h.first
    exact List.dropWhile_cons_of_neg (by rw [hc]; exact Bool.false_ne_true)
  obtain ⟨rest, d, rfl, hd⟩ := h.last
  have hlast : (rest ++ [d] ++ ['\n']).reverse.dropWhile isWhitespace = d :: rest.reverse := by
    rw [List.reverse_append, List.reverse_append, List.reverse_singleton, List.reverse_singleton,
      List.singleton_append, List.singleton_append, List.dropWhile_cons_of_pos (by decide),
      List.dropWhile_cons_of_neg (by rw [hd]; exact Bool.false_ne_true)]
  rw [trim, hfirst, hlast, List.reverse_cons, List.reverse_reverse]

/-- Lines that are solid are read back. -/
theorem lines_intercalate {texts : List (List Char)} (hne : texts ≠ [])
    (h : ∀ text ∈ texts, Solid text ∧ '\n' ∉ text) : lines (['\n'].intercalate texts) = texts := by
  have hstrip : ∀ text ∈ texts, stripReturn text = text := by
    intro text htext
    obtain ⟨rest, c, rfl, hc⟩ := (h text htext).1.last
    refine if_neg fun hreturn => ?_
    rw [List.getLast?_append, List.getLast?_singleton, Option.some_or, Option.some.injEq] at hreturn
    rw [hreturn] at hc
    exact absurd hc (by decide)
  have hlast : texts.getLast?.toList.filter (· ≠ []) = [texts.getLast hne] := by
    rw [List.getLast?_eq_some_getLast hne, Option.toList_some, List.filter_eq_self]
    obtain ⟨c, rest, htext, -⟩ := (h _ (List.getLast_mem hne)).1.first
    rw [htext]
    exact List.forall_mem_singleton.mpr rfl
  have hmiddle : texts.dropLast.map stripReturn = texts.dropLast :=
    (List.map_congr_left fun text htext => hstrip text (List.dropLast_subset _ htext)).trans
      (List.map_id' _)
  unfold lines
  rw [List.splitOn_intercalate '\n' (fun text htext => (h text htext).2) hne]
  dsimp only
  rw [hmiddle, hlast, List.dropLast_append_getLast hne]

section

variable {row : List String} {rows : List (List String)}

/-- The fields of a line of words. -/
theorem IsRow.fields_lineOf (h : IsRow row) :
    ((lineOf row).splitOn '\t').map (fun field => asBytes (String.ofList field)) = row.map asBytes := by
  have hfields : ∀ text ∈ row.map String.toList, '\t' ∉ text := by
    rintro _ htext htab
    obtain ⟨field, hfield, rfl⟩ := List.mem_map.mp htext
    exact absurd ((h.2 field hfield).2 _ htab) (by decide)
  rw [lineOf, List.splitOn_intercalate _ hfields (List.map_eq_nil_iff.not.mpr h.1), List.map_map]
  exact List.map_congr_left fun field _ => congrArg asBytes String.ofList_toList

/-- A line of words is solid, and is one line. -/
theorem IsRow.solid_lineOf (h : IsRow row) : Solid (lineOf row) ∧ '\n' ∉ lineOf row := by
  constructor
  · refine solid_intercalate (List.map_eq_nil_iff.not.mpr h.1) fun text htext => ?_
    obtain ⟨field, hfield, rfl⟩ := List.mem_map.mp htext
    exact (h.2 field hfield).solid
  · intro hbreak
    rcases mem_of_mem_intercalate hbreak with htab | ⟨_, htext, hc⟩
    · exact absurd htab (by decide)
    · obtain ⟨field, hfield, rfl⟩ := List.mem_map.mp htext
      exact absurd ((h.2 field hfield).2 _ hc) (by decide)

/-- The printed text, with the end of its last line apart. -/
theorem flatMap_lines (hne : rows ≠ []) :
    (rows.flatMap fun row => lineOf row ++ ['\n']) = ['\n'].intercalate (rows.map lineOf) ++ ['\n'] := by
  induction rows with
  | nil => exact absurd rfl hne
  | cons row rows ih =>
      rw [List.flatMap_cons, List.map_cons]
      by_cases hrest : rows = []
      · rw [hrest, List.flatMap_nil, List.append_nil, List.map_nil, List.intercalate_singleton]
      · rw [ih hrest, List.intercalate_cons_of_ne_nil (List.map_eq_nil_iff.not.mpr hrest),
          List.append_assoc, List.append_assoc, List.append_assoc]

/-- **Rows of words** that were printed are read back. -/
theorem rowsOf_printRows (h : ∀ row ∈ rows, IsRow row) :
    rowsOf (printRows rows) = rows.map (List.map asBytes) := by
  by_cases hne : rows = []
  · subst hne
    rfl
  have hsolid : ∀ text ∈ rows.map lineOf, Solid text ∧ '\n' ∉ text := by
    intro text htext
    obtain ⟨row, hrow, rfl⟩ := List.mem_map.mp htext
    exact (h row hrow).solid_lineOf
  have hlines : rows.map lineOf ≠ [] := List.map_eq_nil_iff.not.mpr hne
  have hwhole : Solid (['\n'].intercalate (rows.map lineOf)) :=
    solid_intercalate hlines fun text htext => (hsolid text htext).1
  rw [rowsOf, printRows, String.toList_ofList, flatMap_lines hne, trim_solid hwhole,
    lines_intercalate hlines hsolid, List.map_map]
  exact List.map_congr_left fun row hrow => (h row hrow).fields_lineOf

end

/-! ## Modules -/

/-- The entry points of a contract, by their names. Source: `lib.rs` `export_message_contract` -/
def messageExports (contract : Contract) (name : Bytes) : Option EntryPoint :=
  if name = asBytes "init" then some (.init contract)
  else if name = asBytes "process_message" then some (.processMessage contract)
  else none

section

variable [Target]

/-- One row, on a fresh instance of a module with these exports.
Source: `guest_abi.rs` `check_vectors` -/
def checkRow (N base : ℕ) (exports : Bytes → Option EntryPoint) :
    List Bytes → Except VectorError Unit
  | [name, entrypoint, inputText, expectedText] => do
      failIf (name = []) .fields
      let input ← decodeHex inputText
      let expected ← decodeHex expectedText
      let entry ← okOr (exports entrypoint) .entrypointExport
      let output ← (hostCall base entry (GuestArena.new N) input).1.mapError .host
      failIf (output ≠ expected) .outputMismatch
  | _ => .error .fields

/-- The rows of a text one after another: their number. Source: `guest_abi.rs` `check_vectors` -/
def checkVectors (N base : ℕ) (imports : List Bytes) (exports : Bytes → Option EntryPoint)
    (vectors : String) : Except VectorError ℕ := do
  failIf (imports ≠ []) .imports
  let count ← (rowsOf vectors).foldlM (fun count row => do
    checkRow N base exports row
    pure (count + 1)) 0
  failIf (count = 0) .emptyInput
  pure count

variable {N base : ℕ} {exports : Bytes → Option EntryPoint} {rows : List (List Bytes)}
  {row : List Bytes}

/-- A row is right: a name, an entry point, an input that it accepts, and what it answers. -/
def RightRow (N : ℕ) (exports : Bytes → Option EntryPoint) (row : List Bytes) : Prop :=
  ∃ name entrypoint inputText expectedText input output entry,
    row = [name, entrypoint, inputText, expectedText] ∧ name ≠ [] ∧
    inputText.map toLower = hex input ∧ expectedText.map toLower = hex output ∧
    exports entrypoint = some entry ∧ entry.Accepts input output ∧
    input.length + output.length ≤ N

/-- One row. -/
theorem checkRow_ok_iff (hbase : 1 ≤ base) (hend : base + N ≤ 2 ^ 32) {u : Unit} :
    checkRow N base exports row = .ok u ↔ RightRow N exports row := by
  have hidle := GuestArena.idle_new N base
  constructor
  · intro hok
    unfold checkRow at hok
    split at hok
    next name entrypoint inputText expectedText =>
      simp only [bind_ok_iff, okOr_ok_iff, mapError_ok_iff, failIf_ok_iff, exists_const,
        not_not] at hok
      obtain ⟨hname, input, hinput, expected, hexpected, entry, hentry, output, hcall, rfl⟩ := hok
      obtain ⟨haccepts, hfits⟩ := (hostCall_ok_iff hidle hbase hend).mp hcall
      exact ⟨name, entrypoint, inputText, expectedText, input, output, entry, rfl, hname,
        decodeHex_ok_iff.mp hinput, decodeHex_ok_iff.mp hexpected, hentry, haccepts, hfits⟩
    next => cases hok
  · rintro ⟨name, entrypoint, inputText, expectedText, input, output, entry, rfl, hname, hinput,
      houtput, hentry, haccepts, hfits⟩
    unfold checkRow
    simp only [bind_ok_iff, okOr_ok_iff, mapError_ok_iff, failIf_ok_iff, exists_const, not_not]
    exact ⟨hname, input, decodeHex_ok_iff.mpr hinput, output, decodeHex_ok_iff.mpr houtput, entry,
      hentry, output, (hostCall_ok_iff hidle hbase hend).mpr ⟨haccepts, hfits⟩, rfl⟩

/-- The loop counts the rows, if all are right. -/
theorem foldlM_checkRow_ok_iff {count n : ℕ} :
    rows.foldlM (fun count row => do
      checkRow N base exports row
      pure (count + 1)) count = Except.ok n ↔
      n = count + rows.length ∧ ∀ row ∈ rows, checkRow N base exports row = .ok () := by
  induction rows generalizing count with
  | nil =>
      simp only [List.foldlM_nil, pure_ok_iff, List.length_nil, Nat.add_zero, List.not_mem_nil,
        false_implies, implies_true, and_true]
      exact eq_comm
  | cons row rows ih =>
      simp only [List.foldlM_cons, bind_ok_iff, pure_ok_iff, List.forall_mem_cons, List.length_cons]
      constructor
      · rintro ⟨_, ⟨⟨⟩, hrow, rfl⟩, hrest⟩
        obtain ⟨hn, hrows⟩ := ih.mp hrest
        exact ⟨by omega, hrow, hrows⟩
      · rintro ⟨hn, hrow, hrows⟩
        exact ⟨count + 1, ⟨(), hrow, rfl⟩, ih.mpr ⟨by omega, hrows⟩⟩

/-- **The check of a module passes exactly** if the module imports nothing and the rows of the text
are all right, at least one of them: every input is accepted, every output is the one that is expected,
and both fit into the arena together. -/
theorem checkVectors_ok_iff {N base : ℕ} (hbase : 1 ≤ base) (hend : base + N ≤ 2 ^ 32)
    (imports : List Bytes) (exports : Bytes → Option EntryPoint) (vectors : String) (n : ℕ) :
    checkVectors N base imports exports vectors = .ok n ↔
      imports = [] ∧ n = (rowsOf vectors).length ∧ rowsOf vectors ≠ [] ∧
        ∀ row ∈ rowsOf vectors, RightRow N exports row := by
  have hempty : rowsOf vectors ≠ [] ↔ (rowsOf vectors).length ≠ 0 := List.length_eq_zero_iff.not.symm
  unfold checkVectors
  rw [hempty]
  simp only [bind_ok_iff, foldlM_checkRow_ok_iff, checkRow_ok_iff hbase hend, Nat.zero_add,
    failIf_ok_iff, exists_const, not_not, pure_ok_iff]
  constructor
  · rintro ⟨himports, _, ⟨rfl, hrows⟩, hne, rfl⟩
    exact ⟨himports, rfl, hne, hrows⟩
  · rintro ⟨himports, rfl, hne, hrows⟩
    exact ⟨himports, _, ⟨rfl, hrows⟩, hne, rfl⟩

end

/-- Printed bytes have no capital letters. -/
theorem map_toLower_hex (bytes : Bytes) : (hex bytes).map toLower = hex bytes := by
  have hdigits : ∀ b : U8, toLower (hexDigit (b >>> 4)) = hexDigit (b >>> 4) ∧
      toLower (hexDigit (b &&& 15)) = hexDigit (b &&& 15) := by decide +kernel
  induction bytes with
  | nil => rfl
  | cons b bytes ih =>
      obtain ⟨hhigh, hlow⟩ := hdigits b
      rw [hex_cons, List.map_cons, List.map_cons, hhigh, hlow, ih]

/-- The digits of a byte string as a text. -/
def hexText (bytes : Bytes) : String := String.ofList ((hex bytes).map fun c => Char.ofNat c.toNat)

/-- The bytes of a text are those of its characters. -/
theorem asBytes_ofList (text : List Char) :
    asBytes (String.ofList text) = text.flatMap fun c => (String.utf8EncodeChar c).map UInt8.toBitVec := by
  rw [asBytes, String.toByteArray_ofList, List.utf8Encode, List.data_toByteArray, List.map_flatMap]

/-- The bytes of the digits, -/
theorem asBytes_hexText (bytes : Bytes) : asBytes (hexText bytes) = hex bytes := by
  have hascii : ∀ d : U8, d < 16 → (String.utf8EncodeChar (Char.ofNat (hexDigit d).toNat)).map
      UInt8.toBitVec = [hexDigit d] := by decide +kernel
  have hnibbles : ∀ b : U8, b >>> 4 < 16 ∧ b &&& 15 < 16 := by decide +kernel
  rw [hexText, asBytes_ofList, List.flatMap_map]
  induction bytes with
  | nil => rfl
  | cons b bytes ih =>
      rw [hex_cons, List.flatMap_cons, List.flatMap_cons, ih, hascii _ (hnibbles b).1,
        hascii _ (hnibbles b).2, List.singleton_append, List.singleton_append]

/-- which are a word. -/
theorem isWord_hexText {bytes : Bytes} (hne : bytes ≠ []) : IsWord (hexText bytes) := by
  have hsolid : ∀ d : U8, d < 16 → isWhitespace (Char.ofNat (hexDigit d).toNat) = false := by
    decide +kernel
  have hnibbles : ∀ b : U8, b >>> 4 < 16 ∧ b &&& 15 < 16 := by decide +kernel
  rw [IsWord, hexText, String.toList_ofList]
  refine ⟨?_, List.forall_mem_map.mpr fun c hc => ?_⟩
  · obtain ⟨b, rest, rfl⟩ := List.exists_cons_of_ne_nil hne
    exact List.cons_ne_nil _ _
  · obtain ⟨b, -, hb⟩ := List.mem_flatMap.mp hc
    rcases List.mem_pair.mp hb with rfl | rfl
    · exact hsolid _ (hnibbles b).1
    · exact hsolid _ (hnibbles b).2

/-- A row with a call, in an arena with no byte to spare. -/
theorem checkVectors_ok_iff_sample : letI := Target.wasm32
    checkVectors 483 1 [] (messageExports sampleContract)
      (printRows [["call", "process_message", hexText sampleInput.serialize,
        hexText (sampleOutput.isolated 0).toBytes]]) = .ok 1 := by
  let _ := Target.wasm32
  have hrows : rowsOf (printRows [["call", "process_message", hexText sampleInput.serialize,
      hexText (sampleOutput.isolated 0).toBytes]]) =
      [[asBytes "call", asBytes "process_message", hex sampleInput.serialize,
        hex (sampleOutput.isolated 0).toBytes]] := by
    rw [rowsOf_printRows ?_, List.map_singleton, List.map_cons, List.map_cons, List.map_cons,
      List.map_cons, List.map_nil, asBytes_hexText, asBytes_hexText]
    refine List.forall_mem_singleton.mpr ⟨List.cons_ne_nil _ _, ?_⟩
    simp only [List.forall_mem_cons, List.not_mem_nil, false_implies, implies_true, and_true]
    exact ⟨by simp [IsWord, isWhitespace], by simp [IsWord, isWhitespace],
      isWord_hexText (by decide), isWord_hexText (by decide)⟩
  refine (checkVectors_ok_iff (by decide) (by decide) [] _ _ 1).mpr ⟨rfl, ?_⟩
  rw [hrows]
  refine ⟨rfl, nofun, fun row hrow => ?_⟩
  rw [List.mem_singleton.mp hrow]
  refine ⟨_, _, _, _, sampleInput.serialize, (sampleOutput.isolated 0).toBytes,
    .processMessage sampleContract, rfl, by decide, map_toLower_hex _, map_toLower_hex _, ?_, ?_, ?_⟩
  · unfold messageExports
    rw [if_neg (by decide), if_pos rfl]
  · exact ⟨sampleInput, decodeMessageInput_sampleInput, by decide,
      BatchOutput.isolated_answers_iff.mpr ⟨by decide, by decide⟩, sampleOutput_shaped.isolated 0, rfl⟩
  · rw [length_sampleInput]
    decide

end AvmSdk.Tools
