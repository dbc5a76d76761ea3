import AvmSdk.Contracts.Factory.Blake3
import AvmSdk.Tools.MapTree
import Mathlib.Data.List.Sort

/-!
# What the root of a map commits to

* `exists_tree`: the rounds of the recursion are enough. `mapRoot_isSome_iff`: the maps that have a
  root.
* `mapTree_perm`: the order of the rows does not matter.
* `eq_or_clash_of_mapRoot`: a root determines the map, its width and the kind of the tree, or two
  messages that were hashed for it clash.
* `root_commits_iff`: when two maps have a root in common.
-/

namespace AvmSdk.Tools

open Wire Sdk Commit

variable {h : Bytes → Bytes32} {compact : Bool} {width rounds depth stop : ℕ} {items : List Row}

/-! ## Maps that have a tree -/

/-- The first byte decides, or the rest. -/
theorem bytesLe_cons {x y : Byte} {a b : Bytes} :
    bytesLe (x :: a) (y :: b) = true ↔ x.toNat < y.toNat ∨ x = y ∧ bytesLe a b = true := by
  rw [bytesLe]
  split_ifs with hxy
  · subst hxy
    simp
  · simp [hxy]

/-- The order of byte strings is transitive, -/
theorem bytesLe_trans (a b c : Bytes) (hab : bytesLe a b = true) (hbc : bytesLe b c = true) :
    bytesLe a c = true := by
  induction a generalizing b c with
  | nil => rfl
  | cons x a ih =>
      cases b with
      | nil => cases hab
      | cons y b =>
          cases c with
          | nil => cases hbc
          | cons z c =>
              rw [bytesLe_cons] at hab hbc ⊢
              rcases hab with hxy | ⟨rfl, hab⟩ <;> rcases hbc with hyz | ⟨rfl, hbc⟩
              · exact .inl (hxy.trans hyz)
              · exact .inl hxy
              · exact .inl hyz
              · exact .inr ⟨rfl, ih b c hab hbc⟩

/-- total -/
theorem bytesLe_total (a b : Bytes) : (bytesLe a b || bytesLe b a) = true := by
  rw [Bool.or_eq_true]
  induction a generalizing b with
  | nil => exact .inl rfl
  | cons x a ih =>
      cases b with
      | nil => exact .inr rfl
      | cons y b =>
          rw [bytesLe_cons, bytesLe_cons]
          rcases Nat.lt_trichotomy x.toNat y.toNat with hlt | heq | hgt
          · exact .inl (.inl hlt)
          · obtain rfl := BitVec.eq_of_toNat_eq heq
            rcases ih b with hle | hle
            · exact .inl (.inr ⟨rfl, hle⟩)
            · exact .inr (.inr ⟨rfl, hle⟩)
          · exact .inr (.inl hgt)

/-- and antisymmetric. -/
theorem bytesLe_antisymm (a b : Bytes) (hab : bytesLe a b = true) (hba : bytesLe b a = true) :
    a = b := by
  induction a generalizing b with
  | nil =>
      cases b with
      | nil => rfl
      | cons y b => cases hba
  | cons x a ih =>
      cases b with
      | nil => cases hab
      | cons y b =>
          rw [bytesLe_cons] at hab hba
          rcases hab with hlt | ⟨rfl, hab⟩ <;> rcases hba with hgt | ⟨heq, hba⟩
          · omega
          · rw [heq] at hlt
            omega
          · omega
          · rw [ih b hab hba]

/-- Behind a common part, the order is that of the next byte. -/
theorem getD_le_of_bytesLe {a b : Bytes} {j : ℕ} (h : bytesLe a b = true)
    (hlength : a.length = b.length) (hfront : ∀ k < j, a.getD k 0 = b.getD k 0) :
    (a.getD j 0).toNat ≤ (b.getD j 0).toNat := by
  induction a generalizing b j with
  | nil => exact Nat.zero_le _
  | cons x a ih =>
      cases b with
      | nil => cases hlength
      | cons y b =>
          rw [bytesLe_cons] at h
          cases j with
          | zero =>
              show x.toNat ≤ y.toNat
              rcases h with hlt | ⟨rfl, -⟩
              · exact hlt.le
              · exact le_rfl
          | succ j =>
              have hxy : x = y := hfront 0 j.succ_pos
              rcases h with hlt | ⟨-, h⟩
              · rw [hxy] at hlt
                omega
              · exact ih h (Nat.succ.inj hlength) fun k hk => hfront (k + 1) (Nat.succ_lt_succ hk)

/-- The even nibbles of a key are the high halves of its bytes, -/
theorem nibble_even (key : Bytes) (j : ℕ) : nibble key (2 * j) = (key.getD j 0).toNat / 16 := by
  have hlt := (key.getD j 0).isLt
  have hhalf : 2 * j / 2 = j := by omega
  have heven : 2 * j % 2 = 0 := by omega
  unfold nibble
  rw [hhalf, if_pos heven, Nat.shiftRight_eq_div_pow, Nat.and_two_pow_sub_one_eq_mod _ 4]
  omega

/-- and the odd ones the low halves. -/
theorem nibble_odd (key : Bytes) (j : ℕ) : nibble key (2 * j + 1) = (key.getD j 0).toNat % 16 := by
  have hhalf : (2 * j + 1) / 2 = j := by omega
  have hodd : ¬ (2 * j + 1) % 2 = 0 := by omega
  unfold nibble
  rw [hhalf, if_neg hodd, Nat.shiftRight_zero, Nat.and_two_pow_sub_one_eq_mod _ 4]

/-- Keys that share the half bytes of a byte share the byte. -/
theorem getD_eq_of_nibbles {a b : Bytes} {j depth : ℕ} (hj : 2 * j + 1 < depth)
    (h : ∀ i < depth, nibble a i = nibble b i) : a.getD j 0 = b.getD j 0 := by
  have hhigh := h (2 * j) (by omega)
  have hlow := h (2 * j + 1) hj
  rw [nibble_even, nibble_even] at hhigh
  rw [nibble_odd, nibble_odd] at hlow
  apply BitVec.eq_of_toNat_eq
  omega

/-- What lies between two keys shares what they share. -/
theorem nibble_eq_of_between {a x b : Bytes} {depth : ℕ} (hax : bytesLe a x = true)
    (hxb : bytesLe x b = true) (hx : x.length = a.length) (hb : b.length = a.length)
    (h : ∀ i < depth, nibble a i = nibble b i) : ∀ i < depth, nibble x i = nibble a i := by
  intro i
  induction i using Nat.strong_induction_on with
  | _ i ih =>
      intro hi
      have hbefore : ∀ k < i, nibble x k = nibble a k := fun k hk => ih k hk (hk.trans hi)
      -- the bytes in front of this one are shared, so that the order is that of this byte
      have hfront : ∀ k < i / 2, a.getD k 0 = x.getD k 0 := fun k hk =>
        (getD_eq_of_nibbles (by omega) hbefore).symm
      have hends : ∀ k < i, nibble a k = nibble b k := fun k hk => h k (hk.trans hi)
      have hfront' : ∀ k < i / 2, x.getD k 0 = b.getD k 0 := fun k hk =>
        (hfront k hk).symm.trans (getD_eq_of_nibbles (by omega) hends)
      have hle := getD_le_of_bytesLe hax hx.symm hfront
      have hle' := getD_le_of_bytesLe hxb (hx.trans hb.symm) hfront'
      rcases Nat.even_or_odd' i with ⟨j, rfl | rfl⟩
      · have hhalf : 2 * j / 2 = j := by omega
        have hshared := h (2 * j) hi
        rw [hhalf] at hle hle'
        rw [nibble_even, nibble_even] at hshared
        rw [nibble_even, nibble_even]
        omega
      · have hhalf : (2 * j + 1) / 2 = j := by omega
        have hshared := h (2 * j + 1) hi
        have hhigh := hbefore (2 * j) (by omega)
        have hhigh' := h (2 * j) (by omega)
        rw [hhalf] at hle hle'
        rw [nibble_odd, nibble_odd] at hshared
        rw [nibble_even, nibble_even] at hhigh hhigh'
        rw [nibble_odd, nibble_odd]
        omega

/-- A key is its half bytes. -/
theorem eq_of_nibbles {a b : Bytes} (ha : a.length = width) (hb : b.length = width)
    (h : ∀ i < width * 2, nibble a i = nibble b i) : a = b := by
  refine List.ext_getElem (ha.trans hb.symm) fun j hj hj' => ?_
  have heq : a.getD j 0 = b.getD j 0 := getD_eq_of_nibbles (by omega) h
  rwa [List.getD_eq_getElem?_getD, List.getD_eq_getElem?_getD, List.getElem?_eq_getElem hj,
    List.getElem?_eq_getElem hj', Option.getD_some, Option.getD_some] at heq

/-- The rows of a map that share the half bytes in front of a depth. -/
structure Ready (width depth : ℕ) (items : List Row) : Prop where
  ne_nil : items ≠ []
  keys_length : ∀ item ∈ items, item.1.length = width
  values_length : ∀ item ∈ items, item.2.length < 256 ^ 4
  nodup : (items.map Prod.fst).Nodup
  sorted : items.Pairwise fun a b => bytesLe a.1 b.1 = true
  shared : ∀ a ∈ items, ∀ b ∈ items, ∀ i < depth, nibble a.1 i = nibble b.1 i

namespace Ready

variable (hready : Ready width depth items)

include hready

/-- The leaves are single rows. -/
theorem leaf (hdepth : depth = width * 2) : ∃ row, items = [row] ∧ row.2.length < 256 ^ 4 := by
  obtain ⟨first, rest, rfl⟩ := List.exists_cons_of_ne_nil hready.ne_nil
  have hrest : rest = [] := by
    refine List.eq_nil_iff_forall_not_mem.mpr fun row hrow => ?_
    have hmem : row ∈ first :: rest := List.mem_cons_of_mem first hrow
    have heq : first.1 = row.1 := eq_of_nibbles (hready.keys_length first List.mem_cons_self)
      (hready.keys_length row hmem)
      fun i hi => hready.shared first List.mem_cons_self row hmem i (hdepth ▸ hi)
    have hnodup := hready.nodup
    rw [List.map_cons, List.nodup_cons] at hnodup
    exact hnodup.1 (List.mem_map.mpr ⟨row, hrow, heq.symm⟩)
  subst hrest
  exact ⟨first, rfl, hready.values_length first List.mem_cons_self⟩

/-- The rows of a digit. -/
theorem group {digit : ℕ} (hdigit : digit ∈ digits items depth) :
    Ready width (depth + 1) (group items depth digit) := by
  have hsub : (Tools.group items depth digit).Sublist items := List.filter_sublist
  have hmem : ∀ item ∈ Tools.group items depth digit, item ∈ items ∧ nibble item.1 depth = digit :=
    fun item hitem => ⟨List.mem_of_mem_filter hitem, of_decide_eq_true (List.mem_filter.mp hitem).2⟩
  refine ⟨?_, fun item hitem => hready.keys_length item (hmem item hitem).1,
    fun item hitem => hready.values_length item (hmem item hitem).1,
    (hsub.map Prod.fst).nodup hready.nodup, hready.sorted.sublist hsub, ?_⟩
  · obtain ⟨-, hany⟩ := List.mem_filter.mp hdigit
    obtain ⟨item, hitem, heq⟩ := List.any_eq_true.mp hany
    exact List.ne_nil_of_mem (List.mem_filter.mpr ⟨hitem, heq⟩)
  · intro a ha b hb i hi
    rcases Nat.lt_succ_iff_lt_or_eq.mp hi with hlt | rfl
    · exact hready.shared a (hmem a ha).1 b (hmem b hb).1 i hlt
    · rw [(hmem a ha).2, (hmem b hb).2]

end Ready

/-- A common path goes as far as two keys agree. -/
theorem nibble_eq_of_lt_commonEnd {first last : Bytes} {i : ℕ} (hle : stop ≤ i)
    (hlt : i < commonEnd first last rounds stop) : nibble first i = nibble last i := by
  induction rounds generalizing stop with
  | zero =>
      unfold commonEnd at hlt
      omega
  | succ rounds ih =>
      unfold commonEnd at hlt
      split_ifs at hlt with heq
      · rcases Nat.eq_or_lt_of_le hle with rfl | hlt'
        · exact heq
        · exact ih hlt' hlt
      · omega

/-- The first and the last row of a sorted list. -/
theorem between_of_sorted {first last item : Row}
    (h : items.Pairwise fun a b => bytesLe a.1 b.1 = true) (hfirst : items.head? = some first)
    (hlast : items.getLast? = some last) (hitem : item ∈ items) :
    bytesLe first.1 item.1 = true ∧ bytesLe item.1 last.1 = true := by
  have hrefl : ∀ a : Bytes, bytesLe a a = true := fun a => by
    have htotal := bytesLe_total a a
    rwa [Bool.or_self] at htotal
  constructor
  · obtain ⟨rest, rfl⟩ := List.head?_eq_some_iff.mp hfirst
    rw [List.pairwise_cons] at h
    rcases List.mem_cons.mp hitem with rfl | hmem
    · exact hrefl _
    · exact h.1 item hmem
  · obtain ⟨front, rfl⟩ := List.getLast?_eq_some_iff.mp hlast
    rw [List.pairwise_append] at h
    rcases List.mem_append.mp hitem with hmem | hmem
    · exact h.2.2 item hmem last List.mem_cons_self
    · rw [List.mem_singleton.mp hmem]
      exact hrefl _

/-- The rows at the end of a path. -/
theorem Ready.path (hready : Ready width depth items) :
    ∃ stop, pathEnd compact width items depth = some stop ∧ Ready width stop items := by
  cases compact with
  | false => exact ⟨depth, rfl, hready⟩
  | true =>
      obtain ⟨first, hfirst⟩ : ∃ first, items.head? = some first :=
        Option.isSome_iff_exists.mp (List.isSome_head?.mpr hready.ne_nil)
      obtain ⟨last, hlast⟩ : ∃ last, items.getLast? = some last :=
        Option.isSome_iff_exists.mp (List.getLast?_isSome.mpr hready.ne_nil)
      have hfirstMem : first ∈ items := List.mem_of_head? hfirst
      have hlastMem : last ∈ items := List.mem_of_getLast? hlast
      refine ⟨commonEnd first.1 last.1 (width * 2 - depth) depth, ?_, { hready with shared := ?_ }⟩
      · unfold pathEnd
        rw [hfirst, hlast]
        rfl
      · have hends : ∀ i < commonEnd first.1 last.1 (width * 2 - depth) depth,
            nibble first.1 i = nibble last.1 i := by
          intro i hi
          rcases Nat.lt_or_ge i depth with hlt | hge
          · exact hready.shared first hfirstMem last hlastMem i hlt
          · exact nibble_eq_of_lt_commonEnd hge hi
        -- every key lies between the first and the last
        have hall : ∀ item ∈ items, ∀ i < commonEnd first.1 last.1 (width * 2 - depth) depth,
            nibble item.1 i = nibble first.1 i := by
          intro item hitem
          obtain ⟨hle, hle'⟩ := between_of_sorted hready.sorted hfirst hlast hitem
          have hlength : ∀ row ∈ items, row.1.length = first.1.length := fun row hrow =>
            (hready.keys_length row hrow).trans (hready.keys_length first hfirstMem).symm
          exact nibble_eq_of_between hle hle' (hlength item hitem) (hlength last hlastMem) hends
        exact fun a ha b hb i hi => (hall a ha i hi).trans (hall b hb i hi).symm

/-- A function that is defined at every element maps the list. -/
theorem exists_mapM {α β : Type} {f : α → Option β} {as : List α} (h : ∀ a ∈ as, ∃ b, f a = some b) :
    ∃ bs, as.mapM f = some bs := by
  induction as with
  | nil => exact ⟨[], rfl⟩
  | cons a as ih =>
      rw [List.forall_mem_cons] at h
      obtain ⟨b, hb⟩ := h.1
      obtain ⟨bs, hbs⟩ := ih h.2
      refine ⟨b :: bs, ?_⟩
      rw [List.mapM_cons, hb, hbs]
      rfl

/-- **Every map has a tree**, and the rounds are enough. -/
theorem exists_tree (hready : Ready width depth items) (hdepth : depth ≤ width * 2)
    (hrounds : width * 2 - depth < rounds) : ∃ t, tree compact width rounds items depth = some t := by
  induction rounds generalizing items depth with
  | zero => omega
  | succ rounds ih =>
      unfold tree
      by_cases hleaf : depth = width * 2
      · obtain ⟨row, rfl, hvalue⟩ := hready.leaf hleaf
        rw [if_pos hleaf]
        exact ⟨_, if_pos hvalue⟩
      · obtain ⟨stop, hend, hstop⟩ : ∃ stop, pathEnd compact width items depth = some stop ∧
          Ready width stop items := hready.path
        obtain ⟨hle, hle'⟩ := le_pathEnd hdepth hend
        rw [if_neg hleaf, hend]
        by_cases hpath : stop ≠ depth
        · obtain ⟨below, hbelow⟩ := ih hstop hle' (by omega)
          obtain ⟨first, rest, rfl⟩ := List.exists_cons_of_ne_nil hready.ne_nil
          simp only [bind, Option.bind_some, if_pos hpath, List.head?_cons, hbelow]
          exact ⟨_, rfl⟩
        · have hchildren : ∃ children, (digits items depth).mapM (fun digit =>
              tree compact width rounds (group items depth digit) (depth + 1)) = some children :=
            exists_mapM fun digit hdigit => ih (hready.group hdigit) (by omega) (by omega)
          obtain ⟨children, hchildren⟩ := hchildren
          simp only [bind, Option.bind_some, if_neg hpath, hchildren]
          exact ⟨_, rfl⟩

/-! ## The root -/

/-- The tree of a map. -/
def mapTree (compact : Bool) (width : ℕ) (entries : List Row) : Option (HashTree Label) := do
  guard (0 < width ∧ width ≤ 64 ∧ entries.length ≤ 32)
  guard (∀ row ∈ sortedRows entries, row.1.length = width)
  if sortedRows entries = [] then some (.node ⟨compact, width, .empty⟩ [])
  else tree compact width (width * 2 + 1) (sortedRows entries) 0

/-- What is hashed for the root of a map. -/
def hashedFor (h : Bytes → Bytes32) (compact : Bool) (width : ℕ) (entries : List Row) : List Bytes :=
  (mapTree compact width entries).elim [] (HashTree.messages h Label.message)

/-- The maps within the bounds: of the fixtures, and of the length in front of a value. -/
def Fits (width : ℕ) (entries : List Row) : Prop :=
  (0 < width ∧ width ≤ 64 ∧ entries.length ≤ 32) ∧
    ∀ row ∈ entries, row.1.length = width ∧ row.2.length < 256 ^ 4

variable {compact' : Bool} {width' : ℕ} {entries entries' : List Row} {root : Bytes32}
  {t : HashTree Label}

/-- **The root is the digest** of the tree. -/
theorem mapRoot_eq : mapRoot h compact width entries =
    (mapTree compact width entries).map (HashTree.digest h Label.message) := by
  unfold mapRoot mapTree
  by_cases hbounds : 0 < width ∧ width ≤ 64 ∧ entries.length ≤ 32
  · by_cases hkeys : ∀ row ∈ sortedRows entries, row.1.length = width
    · have hwidth : width ≤ 64 := hbounds.2.1
      simp only [guard, if_pos hbounds, if_pos hkeys, bind, pure, Option.bind_some]
      split_ifs with hempty
      · rw [hashed_eq hwidth, Option.map_some, digest_node]
        rfl
      · exact descend_eq hwidth (Nat.zero_le _)
    · rw [guard, if_pos hbounds, guard, if_neg hkeys]
      rfl
  · rw [guard, if_neg hbounds]
    rfl

/-- Sorting permutes the rows, -/
theorem perm_sortedRows (entries : List Row) : (sortedRows entries).Perm entries :=
  List.mergeSort_perm entries _

/-- leaves them in order, -/
theorem pairwise_sortedRows (entries : List Row) :
    (sortedRows entries).Pairwise fun a b => bytesLe a.1 b.1 = true :=
  List.pairwise_mergeSort (fun a b c => bytesLe_trans a.1 b.1 c.1)
    (fun a b => bytesLe_total a.1 b.1) entries

/-- and loses none. -/
theorem sortedRows_eq_nil : sortedRows entries = [] ↔ entries = [] := by
  rw [← List.length_eq_zero_iff, (perm_sortedRows entries).length_eq, List.length_eq_zero_iff]

/-- When there is a tree, and which. -/
theorem mapTree_eq_some : mapTree compact width entries = some t ↔
    (0 < width ∧ width ≤ 64 ∧ entries.length ≤ 32) ∧ (∀ row ∈ entries, row.1.length = width) ∧
      if entries = [] then .node ⟨compact, width, .empty⟩ [] = t
      else tree compact width (width * 2 + 1) (sortedRows entries) 0 = some t := by
  have hkeys : (∀ row ∈ sortedRows entries, row.1.length = width) ↔
      ∀ row ∈ entries, row.1.length = width :=
    forall_congr' fun row => imp_congr_left (perm_sortedRows entries).mem_iff
  simp only [mapTree, guard, bind, Option.bind_eq_some_iff, sortedRows_eq_nil, hkeys]
  constructor
  · rintro ⟨_, hbounds, _, hlengths, ht⟩
    split_ifs at hbounds hlengths with hb hk
    refine ⟨hb, hk, ?_⟩
    split_ifs at ht ⊢ with hempty
    · exact Option.some.inj ht
    · exact ht
  · rintro ⟨hbounds, hlengths, ht⟩
    refine ⟨(), if_pos hbounds, (), if_pos hlengths, ?_⟩
    split_ifs at ht ⊢ with hempty
    · rw [ht]
    · exact ht

/-- The tree of a map says its kind and its width, has the rows at its leaves and can be read back. -/
theorem mapTree_spec (ht : mapTree compact width entries = some t) :
    (∃ n children, t = .node ⟨compact, width, n⟩ children) ∧ (∀ l ∈ t.labels, l.Valid) ∧
      (rows t).Perm entries := by
  obtain ⟨⟨-, hwidth, -⟩, hkeys, htree⟩ := mapTree_eq_some.mp ht
  have hwidthLt : width < 256 ^ 2 := by omega
  have hperm := perm_sortedRows entries
  split_ifs at htree with hempty
  · subst hempty htree
    exact ⟨⟨_, _, rfl⟩, List.forall_mem_singleton.mpr ⟨hwidthLt, trivial⟩, .refl _⟩
  · have hsorted : ∀ row ∈ sortedRows entries, row.1.length = width :=
      fun row hrow => hkeys row (hperm.mem_iff.mp hrow)
    exact ⟨root_of_tree htree, valid_of_tree hwidth (Nat.zero_le _) hsorted htree,
      (perm_rows_of_tree htree).trans hperm⟩

/-- The rows of a map with different keys, in order. -/
theorem ready_sortedRows (hnodup : (entries.map Prod.fst).Nodup) (hempty : entries ≠ [])
    (hrows : ∀ row ∈ entries, row.1.length = width ∧ row.2.length < 256 ^ 4) :
    Ready width 0 (sortedRows entries) := by
  have hperm := perm_sortedRows entries
  refine ⟨fun hnil => hempty (sortedRows_eq_nil.mp hnil),
    fun row hrow => (hrows row (hperm.mem_iff.mp hrow)).1,
    fun row hrow => (hrows row (hperm.mem_iff.mp hrow)).2, (hperm.map _).nodup_iff.mpr hnodup, ?_, ?_⟩
  · exact pairwise_sortedRows entries
  · intro a _ b _ i hi
    exact absurd hi (Nat.not_lt_zero i)

/-- **The maps with a root** are those within the bounds. -/
theorem mapRoot_isSome_iff (hnodup : (entries.map Prod.fst).Nodup) :
    (mapRoot h compact width entries).isSome ↔ Fits width entries := by
  rw [mapRoot_eq, Option.isSome_map, Option.isSome_iff_exists]
  constructor
  · rintro ⟨t, ht⟩
    obtain ⟨-, hvalid, hperm⟩ := mapTree_spec ht
    obtain ⟨hbounds, hkeys, -⟩ := mapTree_eq_some.mp ht
    refine ⟨hbounds, fun row hrow => ⟨hkeys row hrow, ?_⟩⟩
    obtain ⟨l, hl, hleaf⟩ := List.mem_filterMap.mp (hperm.mem_iff.mpr hrow)
    exact ((hvalid l hl).row hleaf).2
  · rintro ⟨hbounds, hrows⟩
    have hkeys : ∀ row ∈ entries, row.1.length = width := fun row hrow => (hrows row hrow).1
    by_cases hempty : entries = []
    · exact ⟨_, mapTree_eq_some.mpr ⟨hbounds, hkeys, by rw [if_pos hempty]⟩⟩
    · obtain ⟨t, ht⟩ : ∃ t, tree compact width (width * 2 + 1) (sortedRows entries) 0 = some t :=
        exists_tree (ready_sortedRows hnodup hempty hrows) (Nat.zero_le _) (Nat.lt_succ_self _)
      refine ⟨t, mapTree_eq_some.mpr ⟨hbounds, hkeys, ?_⟩⟩
      rw [if_neg hempty]
      exact ht

/-- Rows with distinct keys sort to one list, whatever their order. -/
theorem sortedRows_of_perm (hnodup : (entries.map Prod.fst).Nodup) (hperm : entries.Perm entries') :
    sortedRows entries = sortedRows entries' := by
  have hrows : (sortedRows entries).Perm (sortedRows entries') :=
    ((perm_sortedRows entries).trans hperm).trans (perm_sortedRows entries').symm
  have hantisymm : ∀ a b, a ∈ sortedRows entries → b ∈ sortedRows entries' →
      bytesLe a.1 b.1 = true → bytesLe b.1 a.1 = true → a = b := by
    intro a b ha hb hab hba
    have hamem := (perm_sortedRows entries).mem_iff.mp ha
    have hbmem := (perm_sortedRows entries).mem_iff.mp (hrows.mem_iff.mpr hb)
    exact List.inj_on_of_nodup_map hnodup hamem hbmem (bytesLe_antisymm a.1 b.1 hab hba)
  exact List.Perm.eq_of_pairwise hantisymm (pairwise_sortedRows entries) (pairwise_sortedRows entries')
    hrows

/-- The order of the rows does not matter. -/
theorem mapTree_perm (hnodup : (entries.map Prod.fst).Nodup) (hperm : entries.Perm entries') :
    mapTree compact width entries = mapTree compact width entries' := by
  rw [mapTree, mapTree, sortedRows_of_perm hnodup hperm, hperm.length_eq]

/-- Maps with the same root are the same and have the same width and kind of tree, or two of the messages
that were hashed for them clash. -/
theorem eq_or_clash_of_mapRoot (hroot : mapRoot h compact width entries = some root)
    (hroot' : mapRoot h compact' width' entries' = some root) :
    (compact = compact' ∧ width = width' ∧ entries.Perm entries') ∨
      Clash h (hashedFor h compact width entries) (hashedFor h compact' width' entries') := by
  rw [mapRoot_eq, Option.map_eq_some_iff] at hroot hroot'
  obtain ⟨t, ht, hdigest⟩ := hroot
  obtain ⟨t', ht', hdigest'⟩ := hroot'
  obtain ⟨⟨n, children, hnode⟩, hvalid, hperm⟩ := mapTree_spec ht
  obtain ⟨⟨n', children', hnode'⟩, hvalid', hperm'⟩ := mapTree_spec ht'
  rcases HashTree.eq_or_clash decodable_message t t' hvalid hvalid' (hdigest.trans hdigest'.symm) with
    heq | hclash
  · subst heq
    rw [hnode, HashTree.node.injEq, Label.mk.injEq] at hnode'
    exact .inl ⟨hnode'.1.1, hnode'.1.2.1, hperm.symm.trans hperm'⟩
  · rw [hashedFor, hashedFor, ht, ht']
    exact .inr hclash

/-- **A root commits to its map**: unless two of the messages that are hashed for them clash, maps have a
root in common exactly if they are the same, with the same width and kind of tree, and within the bounds. -/
theorem root_commits_iff (hnodup : (entries.map Prod.fst).Nodup)
    (hclash : ¬ Clash h (hashedFor h compact width entries) (hashedFor h compact' width' entries')) :
    (∃ root, mapRoot h compact width entries = some root ∧
        mapRoot h compact' width' entries' = some root) ↔
      (compact = compact' ∧ width = width' ∧ entries.Perm entries') ∧ Fits width entries := by
  constructor
  · rintro ⟨root, hroot, hroot'⟩
    have hfits := (mapRoot_isSome_iff hnodup).mp (Option.isSome_of_eq_some hroot)
    exact ⟨(eq_or_clash_of_mapRoot hroot hroot').resolve_right hclash, hfits⟩
  · rintro ⟨⟨rfl, rfl, hperm⟩, hfits⟩
    obtain ⟨root, hroot⟩ := Option.isSome_iff_exists.mp ((mapRoot_isSome_iff hnodup).mpr hfits)
    refine ⟨root, hroot, ?_⟩
    rw [mapRoot_eq] at hroot ⊢
    rw [← mapTree_perm hnodup hperm, hroot]

/-- Two keys that share their first half byte. -/
def sampleMap : List Row := [([0xa1], ascii "first"), ([0xa2], ascii "second")]

/-- Nothing that is hashed for the sample clashes. -/
theorem sampleMap_no_clash : ¬ Clash Factory.blake3 (hashedFor Factory.blake3 true 1 sampleMap)
    (hashedFor Factory.blake3 true 1 sampleMap.reverse) := by
  have hnodup : (sampleMap.map Prod.fst).Nodup := by decide
  have hsorted : sortedRows sampleMap = sampleMap := List.mergeSort_of_pairwise (by decide)
  have hreverse : mapTree true 1 sampleMap = mapTree true 1 sampleMap.reverse :=
    mapTree_perm hnodup (List.reverse_perm _).symm
  rw [hashedFor, hashedFor, ← hreverse, mapTree, hsorted]
  unfold Clash
  decide +kernel

/-- The order of the rows does not matter. -/
theorem root_commits_iff_sample : ∃ root, mapRoot Factory.blake3 true 1 sampleMap = some root ∧
    mapRoot Factory.blake3 true 1 sampleMap.reverse = some root := by
  refine (root_commits_iff (by decide) sampleMap_no_clash).mpr ⟨⟨rfl, rfl, ?_⟩, ?_, ?_⟩
  · exact (List.reverse_perm _).symm
  · decide
  · decide

end AvmSdk.Tools
