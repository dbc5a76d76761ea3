import AvmSdk.Commit.HashTree
import AvmSdk.Sdk.Machine
import AvmSdk.Wire.FixedWidth

/-!
# The root of a map

The hash by which the state of the accounts is committed to, as the oracle of the packaged journeys
computes it: a tree over the half bytes of the keys, with or without compact paths. The hash function
is a package and a parameter here.

* `mapRoot`: the computation.
* `decodable_message`: what is hashed at a node determines the node and the digests below it.
-/

namespace AvmSdk.Tools

open Wire Sdk Commit

/-! ## The computation -/

/-- The bytes of an ASCII literal. -/
def ascii (s : String) : Bytes := s.toList.map fun c => BitVec.ofNat 8 c.toNat

/-- `value.to_bytes(width, "little")`, which overflows. Source: `fixture_oracle.py` `le` -/
def le (value width : ℕ) : Option Bytes :=
  if value < 256 ^ width then some (leBytes width value) else none

/-- A row of a map. -/
abbrev Row := Bytes × Bytes

/-- What is hashed, apart from its data. -/
inductive Kind
  | empty
  | leaf
  | path
  | branch
deriving DecidableEq

/-- Source: `fixture_oracle.py` `map_root`, `b"EMPTY"` and so on -/
def Kind.name : Kind → Bytes
  | empty => ascii "EMPTY"
  | leaf => ascii "LEAF"
  | path => ascii "PATH"
  | branch => ascii "BRANCH"

/-- Source: `fixture_oracle.py` `map_root`, `prefix` -/
def front (compact : Bool) : Bytes :=
  if compact then ascii "AVM_MULTI_MAP_COMPACT_" else ascii "AVM_MULTI_MAP_"

/-- Source: `fixture_oracle.py` `map_root`, `suffix` -/
def back (compact : Bool) : Bytes := if compact then ascii "_V1" else []

/-- Source: `fixture_oracle.py` `map_root`, `nibble` -/
def nibble (key : Bytes) (depth : ℕ) : ℕ :=
  ((key.getD (depth / 2) 0).toNat >>> if depth % 2 = 0 then 4 else 0) &&& 15

/-- The loop over the half bytes that two keys share, with the number of rounds that are left.
Source: `fixture_oracle.py` `map_root`, `while end < width * 2` -/
def commonEnd (first last : Bytes) : ℕ → ℕ → ℕ
  | 0, stop => stop
  | rounds + 1, stop =>
      if nibble first stop = nibble last stop then commonEnd first last rounds (stop + 1) else stop

/-- The half bytes of a key in a range, two to a byte. Source: `fixture_oracle.py` `map_root`, `path` -/
def packed (key : Bytes) (depth count : ℕ) : Bytes :=
  (List.range ((count + 1) / 2)).map fun j => BitVec.ofNat 8
    ((nibble key (depth + 2 * j) <<< 4) |||
      if 2 * j + 1 < count then nibble key (depth + (2 * j + 1)) else 0)

/-- The half bytes that occur at a depth, in order. Source: `fixture_oracle.py` `map_root`,
`sorted(groups)` -/
def digits (items : List Row) (depth : ℕ) : List ℕ :=
  (List.range 16).filter fun digit => items.any fun item => nibble item.1 depth = digit

/-- The rows with a half byte. Source: `fixture_oracle.py` `map_root`, `groups` -/
def group (items : List Row) (depth digit : ℕ) : List Row :=
  items.filter fun item => nibble item.1 depth = digit

/-- Source: `fixture_oracle.py` `map_root`, `bitmap` -/
def bitmap (digits : List ℕ) : ℕ := (digits.map fun digit => 1 <<< digit).sum

section

variable (h : Bytes → Bytes32) (compact : Bool) (width : ℕ)

/-- Source: `fixture_oracle.py` `map_root`, `hashed` -/
def hashed (kind : Kind) (data : Bytes) : Option Bytes32 := do
  let size ← le width 2
  pure (h (front compact ++ kind.name ++ back compact ++ size ++ data))

/-- The end of the path at a depth: the depth itself, if paths are not compact. -/
def pathEnd (items : List Row) (depth : ℕ) : Option ℕ :=
  if compact then do
    let first ← items.head?
    let last ← items.getLast?
    pure (commonEnd first.1 last.1 (width * 2 - depth) depth)
  else pure depth

/-- The recursion, with the number of rounds that are left. Source: `fixture_oracle.py` `map_root`,
`descend` -/
def descend : ℕ → List Row → ℕ → Option Bytes32
  | 0, _, _ => none
  | rounds + 1, items, depth =>
      if depth = width * 2 then
        match items with
        | [(key, value)] => do
            let size ← le value.length 4
            hashed h compact width .leaf (key ++ size ++ value)
        | _ => none
      else do
        let stop ← pathEnd compact width items depth
        if stop ≠ depth then do
          let first ← items.head?
          let start ← le depth 2
          let finish ← le stop 2
          let below ← descend rounds items stop
          hashed h compact width .path
            (start ++ finish ++ packed first.1 depth (stop - depth) ++ below.val)
        else do
          let start ← le depth 2
          let present ← le (bitmap (digits items depth)) 2
          let children ← (digits items depth).mapM fun digit =>
            descend rounds (group items depth digit) (depth + 1)
          hashed h compact width .branch (start ++ present ++ (children.map Subtype.val).flatten)

/-- The order of byte strings. -/
def bytesLe : Bytes → Bytes → Bool
  | [], _ => true
  | _ :: _, [] => false
  | a :: as, b :: bs => if a = b then bytesLe as bs else decide (a.toNat < b.toNat)

/-- The rows in the order of their keys. Source: `fixture_oracle.py` `map_root`,
`sorted(entries.items())` -/
def sortedRows (entries : List Row) : List Row := entries.mergeSort fun a b => bytesLe a.1 b.1

/-- Source: `fixture_oracle.py` `map_root` -/
def mapRoot (entries : List Row) : Option Bytes32 := do
  guard (0 < width ∧ width ≤ 64 ∧ entries.length ≤ 32)
  guard (∀ row ∈ sortedRows entries, row.1.length = width)
  if sortedRows entries = [] then hashed h compact width .empty [0, 0]
  else descend h compact width (width * 2 + 1) (sortedRows entries) 0

end

/-! ## The messages -/

/-- What stands at a node of the tree. -/
inductive Node
  | empty
  | leaf (row : Row)
  | path (depth stop : ℕ) (cells : Bytes)
  | branch (depth present : ℕ)

namespace Node

/-- The kind of a node. -/
def kind : Node → Kind
  | empty => .empty
  | leaf _ => .leaf
  | path _ _ _ => .path
  | branch _ _ => .branch

/-- The data of a node, in front of the digests of its children. -/
def data : Node → Bytes
  | empty => [0, 0]
  | leaf row => row.1 ++ leBytes 4 row.2.length ++ row.2
  | path depth stop cells => leBytes 2 depth ++ leBytes 2 stop ++ cells
  | branch depth present => leBytes 2 depth ++ leBytes 2 present

/-- The nodes whose data can be read back. -/
def Valid (width : ℕ) : Node → Prop
  | empty => True
  | leaf row => row.1.length = width ∧ row.2.length < 256 ^ 4
  | path depth stop cells => depth < 256 ^ 2 ∧ stop < 256 ^ 2 ∧ cells.length = (stop - depth + 1) / 2
  | branch depth present => depth < 256 ^ 2 ∧ present < 256 ^ 2

/-- The row at a node. -/
def row : Node → Option Row
  | leaf row => some row
  | _ => none

end Node

/-- The label of a node: everything that is hashed but the digests of the children. -/
structure Label where
  compact : Bool
  width : ℕ
  node : Node

/-- The bytes of some digests. -/
def flat (digests : List Bytes32) : Bytes := (digests.map Subtype.val).flatten

namespace Label

/-- What is hashed at a node. -/
def message (l : Label) (digests : List Bytes32) : Bytes :=
  front l.compact ++ l.node.kind.name ++ back l.compact ++ leBytes 2 l.width ++
    (l.node.data ++ flat digests)

/-- The labels that can be read back. -/
structure Valid (l : Label) : Prop where
  width_lt : l.width < 256 ^ 2
  node_ok : l.node.Valid l.width

end Label

/-- The row at a label that can be read back. -/
theorem Label.Valid.row {l : Label} {row : Row} (hl : l.Valid) (hrow : l.node.row = some row) :
    row.1.length = l.width ∧ row.2.length < 256 ^ 4 := by
  obtain ⟨compact, width, n⟩ := l
  cases n with
  | leaf row' =>
      obtain rfl := Option.some.inj hrow
      exact hl.node_ok
  | _ => cases hrow

/-- The digests can be cut apart. -/
theorem flat_injective {ds ds' : List Bytes32} (h : flat ds = flat ds') : ds = ds' := by
  have hlength : ∀ ds : List Bytes32, (flat ds).length = ds.length * 32 := by
    intro ds
    induction ds with
    | nil => rfl
    | cons d ds ih =>
        have hcons : flat (d :: ds) = d.val ++ flat ds := rfl
        rw [hcons, List.length_append, ih, length_bytesN, List.length_cons]
        omega
  have hds : ds.length = ds'.length := by
    have hlen := congrArg List.length h
    rw [hlength, hlength] at hlen
    omega
  have hfixed := (FixedWidth.array 32 (by decide)).selfDelimiting.flatMap ds ds' [] [] hds
    (fun _ _ => trivial) (fun _ _ => trivial)
  unfold flat at h
  rw [← List.flatMap_def, ← List.flatMap_def] at h
  refine (hfixed ?_).1
  rw [List.append_nil, List.append_nil]
  exact h

/-- The names of the kinds begin with different letters. -/
theorem Kind.name_append_inj {k k' : Kind} {s t : Bytes} (h : k.name ++ s = k'.name ++ t) :
    k = k' ∧ s = t := by
  have hletter : ∀ (k : Kind) (s : Bytes), (k.name ++ s).head? = k.name.head? := by
    intro k s
    cases k <;> rfl
  have hhead := congrArg List.head? h
  rw [hletter, hletter] at hhead
  obtain rfl : k = k' := by
    cases k <;> cases k' <;> first | rfl | exact absurd hhead (by decide)
  exact ⟨rfl, List.append_cancel_left h⟩

/-- The compact trees have a name of their own. -/
theorem front_name_inj {c c' : Bool} {k k' : Kind} {s t : Bytes}
    (h : front c ++ (k.name ++ s) = front c' ++ (k'.name ++ t)) : c = c' ∧ k = k' ∧ s = t := by
  have hletter : ∀ (c : Bool) (k : Kind) (s : Bytes),
      (front c ++ (k.name ++ s))[14]? = if c then some 0x43 else k.name.head? := by
    intro c k s
    cases c <;> cases k <;> rfl
  have hcompact : (front c ++ (k.name ++ s))[14]? = (front c' ++ (k'.name ++ t))[14]? := by rw [h]
  rw [hletter, hletter] at hcompact
  obtain rfl : c = c' := by
    cases c <;> cases c' <;> cases k <;> cases k' <;> first
      | rfl
      | exact absurd hcompact (by decide)
  exact ⟨rfl, Kind.name_append_inj (List.append_cancel_left h)⟩

/-- A node and what follows it can be read back, if its kind is known. -/
theorem Node.data_append_inj {n n' : Node} {width : ℕ} {s t : Bytes} (hkind : n.kind = n'.kind)
    (hn : n.Valid width) (hn' : n'.Valid width) (h : n.data ++ s = n'.data ++ t) :
    n = n' ∧ s = t := by
  cases n with
  | empty =>
      cases n' with
      | empty => exact ⟨rfl, List.append_cancel_left h⟩
      | _ => cases hkind
  | leaf row =>
      cases n' with
      | leaf row' =>
          obtain ⟨key, value⟩ := row
          obtain ⟨key', value'⟩ := row'
          unfold data at h
          rw [List.append_assoc, List.append_assoc, List.append_assoc, List.append_assoc] at h
          obtain ⟨rfl, hvalue⟩ := append_inj_of_length (hn.1.trans hn'.1.symm) h
          rw [← List.append_assoc, ← List.append_assoc] at hvalue
          obtain ⟨rfl, hrest⟩ := lengthPrefixed_append_inj hn.2 hn'.2 hvalue
          exact ⟨rfl, hrest⟩
      | _ => cases hkind
  | path depth stop cells =>
      cases n' with
      | path depth' stop' cells' =>
          obtain ⟨hdepth, hstop, hcells⟩ := hn
          obtain ⟨hdepth', hstop', hcells'⟩ := hn'
          unfold data at h
          rw [List.append_assoc, List.append_assoc, List.append_assoc, List.append_assoc] at h
          obtain ⟨rfl, hnext⟩ := leBytes_append_inj hdepth hdepth' h
          obtain ⟨rfl, hpart⟩ := leBytes_append_inj hstop hstop' hnext
          obtain ⟨rfl, hrest⟩ := append_inj_of_length (hcells.trans hcells'.symm) hpart
          exact ⟨rfl, hrest⟩
      | _ => cases hkind
  | branch depth present =>
      cases n' with
      | branch depth' present' =>
          unfold data at h
          rw [List.append_assoc, List.append_assoc] at h
          obtain ⟨rfl, hnext⟩ := leBytes_append_inj hn.1 hn'.1 h
          obtain ⟨rfl, hrest⟩ := leBytes_append_inj hn.2 hn'.2 hnext
          exact ⟨rfl, hrest⟩
      | _ => cases hkind

/-- **A message determines** its label and the digests in it. -/
theorem decodable_message : Decodable Label.Valid Label.message := by
  rintro ⟨c, width, n⟩ ⟨c', width', n'⟩ ds ds' ⟨hwidth, hn⟩ ⟨hwidth', hn'⟩ h
  unfold Label.message at h
  dsimp only at h hwidth hwidth' hn hn'
  simp only [List.append_assoc] at h
  obtain ⟨rfl, hkind, hback⟩ := front_name_inj h
  obtain ⟨rfl, hdata⟩ := leBytes_append_inj hwidth hwidth' (List.append_cancel_left hback)
  obtain ⟨rfl, hflat⟩ := Node.data_append_inj hkind hn hn' hdata
  exact ⟨rfl, flat_injective hflat⟩

end AvmSdk.Tools
