import AvmSdk.Tools.MapRoot
import Mathlib.Algebra.Order.BigOperators.Group.List

/-!
# The tree of a map

The recursion behind the root of a map digests a tree, whose leaves are the rows of the map.

* `tree`: the tree of a part of the map.
* `descend_eq`: the recursion computes its digest.
* `perm_rows_of_tree`, `valid_of_tree`: the rows are the leaves, and the labels can be read back.
-/

namespace AvmSdk.Tools

open Wire Sdk Commit

/-! ## The tree -/

/-- Results for all members of a list. -/
theorem mapM_eq_some {α β : Type} {f : α → Option β} {as : List α} {bs : List β} :
    as.mapM f = some bs ↔ List.Forall₂ (fun a b => f a = some b) as bs := by
  induction as generalizing bs with
  | nil =>
      rw [List.mapM_nil, List.forall₂_nil_left_iff]
      exact ⟨fun h => (Option.some.inj h).symm, fun h => h ▸ rfl⟩
  | cons a as ih =>
      rw [List.mapM_cons, List.forall₂_cons_left_iff]
      simp only [bind, pure, Option.bind_eq_some_iff, ih, Option.some.injEq]
      constructor
      · rintro ⟨b, hb, rest, hrest, rfl⟩
        exact ⟨b, rest, hb, hrest, rfl⟩
      · rintro ⟨b, rest, hb, hrest, rfl⟩
        exact ⟨b, hb, rest, hrest, rfl⟩

/-- A result has an argument. -/
theorem exists_of_mem {α β : Type} {R : α → β → Prop} {as : List α} {bs : List β}
    (h : List.Forall₂ R as bs) {b : β} (hb : b ∈ bs) : ∃ a, R a b := by
  induction h with
  | nil => cases hb
  | cons hR _ ih =>
      rcases List.mem_cons.mp hb with rfl | hb
      · exact ⟨_, hR⟩
      · exact ih hb

/-- Results that are mapped. -/
theorem mapM_map {α β γ : Type} (f : α → Option β) (g : β → γ) (as : List α) :
    as.mapM (fun a => (f a).map g) = (as.mapM f).map (List.map g) := by
  induction as with
  | nil => rfl
  | cons a as ih =>
      rw [List.mapM_cons, List.mapM_cons, ih]
      cases f a with
      | none => rfl
      | some b => cases as.mapM f <;> rfl

section

variable (compact : Bool) (width : ℕ)

/-- The tree of a part of the map, with the number of rounds that are left. -/
def tree : ℕ → List Row → ℕ → Option (HashTree Label)
  | 0, _, _ => none
  | rounds + 1, items, depth =>
      if depth = width * 2 then
        match items with
        | [row] =>
            if row.2.length < 256 ^ 4 then some (.node ⟨compact, width, .leaf row⟩ []) else none
        | _ => none
      else do
        let stop ← pathEnd compact width items depth
        if stop ≠ depth then do
          let first ← items.head?
          let below ← tree rounds items stop
          pure (.node
            ⟨compact, width, .path depth stop (packed first.1 depth (stop - depth))⟩ [below])
        else do
          let children ← (digits items depth).mapM fun digit =>
            tree rounds (group items depth digit) (depth + 1)
          pure (.node ⟨compact, width, .branch depth (bitmap (digits items depth))⟩ children)

end

variable {h : Bytes → Bytes32} {compact : Bool} {width rounds depth stop : ℕ} {items : List Row}
  {t : HashTree Label}

/-- Where the common prefix ends. -/
theorem le_commonEnd (first last : Bytes) (rounds stop : ℕ) :
    stop ≤ commonEnd first last rounds stop ∧ commonEnd first last rounds stop ≤ stop + rounds := by
  induction rounds generalizing stop with
  | zero => exact ⟨le_rfl, le_rfl⟩
  | succ rounds ih =>
      unfold commonEnd
      split_ifs
      · have hnext := ih (stop + 1)
        omega
      · omega

/-- A path goes down, and not below the leaves. -/
theorem le_pathEnd (hdepth : depth ≤ width * 2) (hstop : pathEnd compact width items depth = some stop) :
    depth ≤ stop ∧ stop ≤ width * 2 := by
  unfold pathEnd at hstop
  cases compact with
  | false =>
      rw [if_neg Bool.false_ne_true] at hstop
      obtain rfl := Option.some.inj hstop
      exact ⟨le_rfl, hdepth⟩
  | true =>
      rw [if_pos rfl] at hstop
      simp only [bind, pure, Option.bind_eq_some_iff, Option.some.injEq] at hstop
      obtain ⟨first, -, last, -, rfl⟩ := hstop
      have hend := le_commonEnd first.1 last.1 (width * 2 - depth) depth
      omega

/-- The digits that occur are less than 16, without repetition. -/
theorem bitmap_lt (items : List Row) (depth : ℕ) : bitmap (digits items depth) < 256 ^ 2 := by
  have hall : bitmap (List.range 16) < 256 ^ 2 := by decide
  refine Nat.lt_of_le_of_lt ?_ hall
  exact List.Sublist.sum_le_sum (List.filter_sublist.map _) fun _ _ => Nat.zero_le _

/-- The length of a packed path. -/
theorem length_packed (key : Bytes) (depth count : ℕ) :
    (packed key depth count).length = (count + 1) / 2 := by
  rw [packed, List.length_map, List.length_range]

/-- A value in range has its little-endian bytes. -/
theorem le_eq_some {value width : ℕ} (hlt : value < 256 ^ width) :
    le value width = some (leBytes width value) := if_pos hlt

/-- What is hashed, for a width that fits. -/
theorem hashed_eq (hwidth : width ≤ 64) (kind : Kind) (data : Bytes) :
    hashed h compact width kind data =
      some (h (front compact ++ kind.name ++ back compact ++ leBytes 2 width ++ data)) := by
  have hlt : width < 256 ^ 2 := by omega
  rw [hashed, le_eq_some hlt]
  rfl

/-- The digest of a node. -/
theorem digest_node (n : Node) (children : List (HashTree Label)) :
    (HashTree.node ⟨compact, width, n⟩ children).digest h Label.message =
      h (front compact ++ n.kind.name ++ back compact ++ leBytes 2 width ++
        (n.data ++ flat (children.map (HashTree.digest h Label.message)))) := by
  rw [HashTree.digest, HashTree.digests_eq]
  rfl

/-- **The recursion computes the digest** of the tree. -/
theorem descend_eq (hwidth : width ≤ 64) (hdepth : depth ≤ width * 2) :
    descend h compact width rounds items depth =
      (tree compact width rounds items depth).map (HashTree.digest h Label.message) := by
  induction rounds generalizing items depth with
  | zero => rfl
  | succ rounds ih =>
      unfold descend tree
      by_cases hleaf : depth = width * 2
      · rw [if_pos hleaf, if_pos hleaf]
        match items with
        | [] => rfl
        | _ :: _ :: _ => rfl
        | [(key, value)] =>
            dsimp only
            by_cases hvalue : value.length < 256 ^ 4
            · rw [le_eq_some hvalue, if_pos hvalue, Option.map_some, digest_node]
              show hashed h compact width .leaf _ = _
              rw [hashed_eq hwidth]
              simp [Node.kind, Node.data, flat]
            · rw [le, if_neg hvalue, if_neg hvalue]
              rfl
      · rw [if_neg hleaf, if_neg hleaf]
        cases hend : pathEnd compact width items depth with
        | none => rfl
        | some stop =>
            obtain ⟨hle, hstop⟩ := le_pathEnd hdepth hend
            have hdepthLt : depth < 256 ^ 2 := by omega
            have hstopLt : stop < 256 ^ 2 := by omega
            simp only [bind, Option.bind_some]
            by_cases hpath : stop ≠ depth
            · rw [if_pos hpath, if_pos hpath, le_eq_some hdepthLt, le_eq_some hstopLt,
                ih hstop]
              cases items.head? with
              | none => rfl
              | some first =>
                  cases tree compact width rounds items stop with
                  | none => rfl
                  | some below =>
                      simp only [Option.bind_some, Option.map_some, pure, hashed_eq hwidth,
                        digest_node]
                      simp [Node.kind, Node.data, flat]
            · have hnext : depth + 1 ≤ width * 2 := by omega
              have hchildren := mapM_map
                (fun digit => tree compact width rounds (group items depth digit) (depth + 1))
                (HashTree.digest h Label.message) (digits items depth)
              rw [if_neg hpath, if_neg hpath, le_eq_some hdepthLt, le_eq_some (bitmap_lt items depth)]
              simp only [Option.bind_some, ih hnext, hchildren]
              cases (digits items depth).mapM fun digit =>
                  tree compact width rounds (group items depth digit) (depth + 1) with
              | none => rfl
              | some children =>
                  simp only [Option.bind_some, Option.map_some, pure, hashed_eq hwidth, digest_node]
                  simp [Node.kind, Node.data, flat]

/-- What a tree is: a leaf, a path above a tree, or a branch above the trees of the groups. -/
theorem tree_cases (ht : tree compact width (rounds + 1) items depth = some t) :
    (∃ row, items = [row] ∧ row.2.length < 256 ^ 4 ∧ t = .node ⟨compact, width, .leaf row⟩ []) ∨
      (∃ stop first below, pathEnd compact width items depth = some stop ∧
        tree compact width rounds items stop = some below ∧
        t = .node ⟨compact, width, .path depth stop (packed first depth (stop - depth))⟩ [below]) ∨
      ∃ children, depth ≠ width * 2 ∧
        List.Forall₂ (fun digit child =>
          tree compact width rounds (group items depth digit) (depth + 1) = some child)
          (digits items depth) children ∧
        t = .node ⟨compact, width, .branch depth (bitmap (digits items depth))⟩ children := by
  unfold tree at ht
  split_ifs at ht with hleaf
  · match items with
    | [] => cases ht
    | _ :: _ :: _ => cases ht
    | [row] =>
        dsimp only at ht
        split_ifs at ht with hvalue
        exact .inl ⟨row, rfl, hvalue, (Option.some.inj ht).symm⟩
  · simp only [bind, Option.bind_eq_some_iff] at ht
    obtain ⟨stop, hend, ht⟩ := ht
    split_ifs at ht with hpath
    · simp only [pure, Option.bind_eq_some_iff, Option.some.injEq] at ht
      obtain ⟨first, -, below, hbelow, rfl⟩ := ht
      exact .inr (.inl ⟨stop, first.1, below, hend, hbelow, rfl⟩)
    · simp only [pure, Option.bind_eq_some_iff, Option.some.injEq, mapM_eq_some] at ht
      obtain ⟨children, hchildren, rfl⟩ := ht
      exact .inr (.inr ⟨children, hleaf, hchildren, rfl⟩)

/-- The root of a tree says its kind and its width. -/
theorem root_of_tree (ht : tree compact width rounds items depth = some t) :
    ∃ n children, t = .node ⟨compact, width, n⟩ children := by
  cases rounds with
  | zero => cases ht
  | succ rounds =>
      rcases tree_cases ht with ⟨_, _, _, rfl⟩ | ⟨_, _, _, _, _, rfl⟩ | ⟨_, _, _, rfl⟩
      · exact ⟨_, _, rfl⟩
      · exact ⟨_, _, rfl⟩
      · exact ⟨_, _, rfl⟩

/-! ### The leaves of the tree -/

/-- The rows at the leaves of a tree. -/
def rows (t : HashTree Label) : List Row := t.labels.filterMap fun l => l.node.row

/-- The rows of a node are its own and those of its children. -/
theorem rows_node (l : Label) (children : List (HashTree Label)) :
    rows (.node l children) = l.node.row.toList ++ children.flatMap rows := by
  have hchildren : (children.flatMap HashTree.labels).filterMap (fun l => l.node.row) =
      children.flatMap rows := List.filterMap_flatMap ..
  rw [rows, HashTree.labels, HashTree.labelsAll_eq]
  cases hrow : l.node.row with
  | none => simp only [List.filterMap_cons, hrow, hchildren, Option.toList_none, List.nil_append]
  | some row =>
      simp only [List.filterMap_cons, hrow, hchildren, Option.toList_some, List.singleton_append]

/-- The rows with one of some half bytes. -/
theorem perm_flatMap_group (items : List Row) (depth : ℕ) {ds : List ℕ} (hds : ds.Nodup) :
    (ds.flatMap (group items depth)).Perm (items.filter fun item => nibble item.1 depth ∈ ds) := by
  induction ds with
  | nil => simp
  | cons d ds ih =>
      rw [List.nodup_cons] at hds
      have hsplit := (items.filter fun item => nibble item.1 depth ∈ d :: ds).filter_append_perm
        fun item => nibble item.1 depth = d
      have hfirst : (items.filter fun item => nibble item.1 depth ∈ d :: ds).filter
          (fun item => nibble item.1 depth = d) = group items depth d := by
        rw [List.filter_filter]
        refine List.filter_congr fun item _ => ?_
        by_cases heq : nibble item.1 depth = d <;> simp [heq]
      have hrest : (items.filter fun item => nibble item.1 depth ∈ d :: ds).filter
          (fun item => !decide (nibble item.1 depth = d)) =
            items.filter fun item => nibble item.1 depth ∈ ds := by
        rw [List.filter_filter]
        refine List.filter_congr fun item _ => ?_
        by_cases heq : nibble item.1 depth = d
        · simp [heq, hds.1]
        · simp [heq]
      rw [hfirst, hrest] at hsplit
      rw [List.flatMap_cons]
      exact ((ih hds.2).append_left _).trans hsplit

/-- A nibble is below 16. -/
theorem nibble_lt (key : Bytes) (depth : ℕ) : nibble key depth < 16 := by
  have hle : nibble key depth ≤ 15 := Nat.and_le_right
  omega

/-- The groups are all rows. -/
theorem perm_groups (items : List Row) (depth : ℕ) :
    ((digits items depth).flatMap (group items depth)).Perm items := by
  have hnodup : (digits items depth).Nodup := List.nodup_range.filter _
  refine (perm_flatMap_group items depth hnodup).trans (.of_eq ?_)
  refine List.filter_eq_self.mpr fun item hitem => decide_eq_true ?_
  refine List.mem_filter.mpr ⟨List.mem_range.mpr (nibble_lt item.1 depth), ?_⟩
  exact List.any_eq_true.mpr ⟨item, hitem, decide_eq_true rfl⟩

/-- **The rows of the map** are at the leaves of the tree. -/
theorem perm_rows_of_tree (ht : tree compact width rounds items depth = some t) :
    (rows t).Perm items := by
  induction rounds generalizing items depth t with
  | zero => cases ht
  | succ rounds ih =>
      rcases tree_cases ht with ⟨row, rfl, -, rfl⟩ | ⟨stop, first, below, -, hbelow, rfl⟩ |
        ⟨children, -, hchildren, rfl⟩
      · rw [rows_node]
        exact .refl _
      · rw [rows_node, List.flatMap_singleton]
        exact ih hbelow
      · rw [rows_node]
        refine List.Perm.trans ?_ (perm_groups items depth)
        -- a child for every digit, with the rows of its group
        show (children.flatMap rows).Perm _
        clear ht
        generalize digits items depth = ds at hchildren ⊢
        induction hchildren with
        | nil => exact .refl _
        | cons hchild _ ihchildren =>
            rw [List.flatMap_cons, List.flatMap_cons]
            exact (ih hchild).append ihchildren

/-- The labels of the tree can be read back. -/
theorem valid_of_tree (hwidth : width ≤ 64) (hdepth : depth ≤ width * 2)
    (hkeys : ∀ item ∈ items, item.1.length = width)
    (ht : tree compact width rounds items depth = some t) : ∀ l ∈ t.labels, l.Valid := by
  have hwidthLt : width < 256 ^ 2 := by omega
  have hdepthLt : depth < 256 ^ 2 := by omega
  induction rounds generalizing items depth t with
  | zero => cases ht
  | succ rounds ih =>
      rcases tree_cases ht with ⟨row, rfl, hvalue, rfl⟩ | ⟨stop, first, below, hend, hbelow, rfl⟩ |
        ⟨children, hleaf, hchildren, rfl⟩
      · have hkey := hkeys row List.mem_cons_self
        exact List.forall_mem_singleton.mpr ⟨hwidthLt, hkey, hvalue⟩
      · obtain ⟨-, hstop⟩ := le_pathEnd hdepth hend
        have hstopLt : stop < 256 ^ 2 := by omega
        rw [HashTree.labels, HashTree.labelsAll_eq, List.flatMap_singleton, List.forall_mem_cons]
        exact ⟨⟨hwidthLt, hdepthLt, hstopLt, length_packed _ _ _⟩, ih hstop hkeys hbelow hstopLt⟩
      · rw [HashTree.labels, HashTree.labelsAll_eq, List.forall_mem_cons]
        refine ⟨⟨hwidthLt, hdepthLt, bitmap_lt items depth⟩, fun l hl => ?_⟩
        obtain ⟨child, hchild, hlabel⟩ := List.mem_flatMap.mp hl
        obtain ⟨digit, htree⟩ := exists_of_mem hchildren hchild
        have hgroup : ∀ item ∈ group items depth digit, item.1.length = width :=
          fun item hitem => hkeys item (List.mem_of_mem_filter hitem)
        have hnext : depth + 1 ≤ width * 2 := by omega
        exact ih hnext hgroup htree (by omega) l hlabel

end AvmSdk.Tools
