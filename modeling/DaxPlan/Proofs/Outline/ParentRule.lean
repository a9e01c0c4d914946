import DaxPlan.Outline
import DaxPlan.Proofs.Tree.Agreement
import Mathlib.Data.List.Basic
import Mathlib.Data.List.Induction

/-!
# The parent of a row

The parent of a row is the nearest row before it that is indented less (`ofRows_parents`). No search for it is made: the branch
remembers one row for each level, forgets the deeper levels at every row, and is looked up in two steps. `Branch.above` lists
what a branch remembers above a level; the last of these is the parent (`Branch.parent?_eq`), a row of some level changes only
what lies below that level (`Branch.above_extend`), and so at any time the branch answers for every level what a search back
from the end would find (`Grown.parent?`).
-/

namespace DaxPlan

/-- A node but for its level. -/
def Node.unleveled {α : Type} (n : Node α) : Node α := { n with depth := 0 }

namespace Outline

open DaxPlan.Tree

variable {α : Type} [Quantity α] {rows : List Row} {row : Row} {level l i j : Nat}

/-! ## Parents by search -/

/-- The last of some rows that is indented less than a level says, found by going back from the end. -/
def lastShallower (rows : List Row) (level : Nat) : Option Nat :=
  (rows.zipIdx.reverse.find? (fun r => r.1.indentLevel < level)).map Prod.snd

/-- The nearest row before a row that is indented less. -/
def parentRow (rows : List Row) (i : Nat) : Option Nat :=
  (rows[i]?).bind (fun row => lastShallower (rows.take i) row.indentLevel)

/-- The rows that have a row as their parent, in order. -/
def childRows (rows : List Row) (i : Nat) : List Nat :=
  (List.range rows.length).filter (fun j => parentRow rows j == some i)

/-- The rows without a parent, in order. -/
def topRows (rows : List Row) : List Nat := (List.range rows.length).filter (fun j => (parentRow rows j).isNone)

theorem lastShallower_snoc (rows : List Row) (row : Row) (level : Nat) :
    lastShallower (rows ++ [row]) level = if row.indentLevel < level then some rows.length else lastShallower rows level := by
  unfold lastShallower
  rw [List.zipIdx_append, List.reverse_append]
  by_cases h : row.indentLevel < level <;> simp [h]

theorem lastShallower_lt (h : lastShallower rows level = some i) : i < rows.length := by
  obtain ⟨r, hr, rfl⟩ := Option.map_eq_some_iff.mp h
  have hmem := List.mem_of_find?_eq_some hr
  rw [List.mem_reverse] at hmem
  have := List.snd_lt_add_of_mem_zipIdx hmem
  omega

theorem parentRow_snoc_of_lt (row : Row) (h : i < rows.length) : parentRow (rows ++ [row]) i = parentRow rows i := by
  unfold parentRow
  rw [List.getElem?_append_left h, List.take_append_of_le_length (Nat.le_of_lt h)]

theorem parentRow_snoc_length (rows : List Row) (row : Row) :
    parentRow (rows ++ [row]) rows.length = lastShallower rows row.indentLevel := by
  simp [parentRow]

theorem parentRow_lt (h : parentRow rows i = some j) : j < i := by
  obtain ⟨row, -, hj⟩ := Option.bind_eq_some_iff.mp h
  have := lastShallower_lt hj
  rw [List.length_take] at this
  omega

/-- A new row comes last among the children of its parent. -/
theorem childRows_snoc (rows : List Row) (row : Row) (i : Nat) :
    childRows (rows ++ [row]) i =
      childRows rows i ++ if lastShallower rows row.indentLevel = some i then [rows.length] else [] := by
  unfold childRows
  rw [List.length_append, List.length_singleton, List.range_succ, List.filter_append]
  congr 1
  · refine List.filter_congr (fun j hj => ?_)
    rw [parentRow_snoc_of_lt row (List.mem_range.mp hj)]
  · by_cases h : lastShallower rows row.indentLevel = some i <;> simp [parentRow_snoc_length, h]

theorem topRows_snoc (rows : List Row) (row : Row) :
    topRows (rows ++ [row]) = topRows rows ++ if (lastShallower rows row.indentLevel).isNone then [rows.length] else [] := by
  unfold topRows
  rw [List.length_append, List.length_singleton, List.range_succ, List.filter_append]
  congr 1
  · refine List.filter_congr (fun j hj => ?_)
    rw [parentRow_snoc_of_lt row (List.mem_range.mp hj)]
  · by_cases h : (lastShallower rows row.indentLevel).isNone <;> simp [parentRow_snoc_length, h]

/-- No row comes before its parent. -/
theorem childRows_length (rows : List Row) : childRows rows rows.length = [] := by
  refine List.filter_eq_nil_iff.mpr (fun j hj hp => ?_)
  have := parentRow_lt (beq_iff_eq.mp hp)
  have := List.mem_range.mp hj
  omega

/-! ## Parents by the branch -/

namespace Branch

/-- The rows that a branch remembers above a level, from the top. -/
def above (branch : Branch) (level : Nat) : List NodeId := (branch.take level).filterMap id

/-- The parent is the lowest row remembered above a level, however the look-up comes to it. -/
theorem parent?_eq (branch : Branch) (level : Nat) : branch.parent? level = (branch.above level).getLast? := by
  unfold above parent?
  cases level with
  | zero => rfl
  | succ l =>
    have hlast : ∀ slots : List (Option NodeId), (slots.filterMap id).getLast? = slots.reverse.findSome? id := by
      intro slots
      rw [List.getLast?_eq_head?_reverse, ← List.filterMap_reverse, List.head?_filterMap]
    rw [hlast, List.take_add_one, List.reverse_append]
    simp only [Nat.add_one_ne_zero, beq_iff_eq, if_false, Nat.add_sub_cancel]
    cases hl : branch[l]? with
    | none => rfl
    | some slot =>
      cases slot with
      | none => rfl
      | some id => rfl

/-- A row of some level changes what is remembered below the level only, and is the lowest row there. -/
theorem above_extend (branch : Branch) (level l : Nat) (i : NodeId) :
    (branch.extend level i).above l = if level < l then branch.above level ++ [i] else branch.above l := by
  unfold above extend
  have hempty : ∀ n, (List.replicate n (none : Option NodeId)).filterMap id = [] := by
    intro n
    refine List.filterMap_eq_nil_iff.mpr (fun slot hslot => ?_)
    rw [(List.mem_replicate.mp hslot).2]
    rfl
  have hkept : (branch.take level).length ≤ level := List.length_take_le _ _
  by_cases hl : level < l
  · rw [if_pos hl, List.take_of_length_le, List.filterMap_append, List.filterMap_append, hempty, List.append_nil]
    · rfl
    · simp only [List.length_append, List.length_replicate, List.length_singleton]
      omega
  · rw [if_neg hl, List.append_assoc, List.take_append, List.take_append_of_le_length, List.take_replicate,
      List.filterMap_append, hempty, List.append_nil, List.take_take, Nat.min_eq_left (Nat.le_of_not_lt hl)]
    rw [List.length_replicate]
    omega

/-- After a row of some level, that row is the parent at every level below, and above nothing changes. -/
theorem parent?_extend (branch : Branch) (level l : Nat) (i : NodeId) :
    (branch.extend level i).parent? l = if level < l then some i else branch.parent? l := by
  rw [parent?_eq, parent?_eq, above_extend]
  split
  · rw [List.getLast?_concat]
  · rfl

end Branch

/-! ## Rows one by one -/

/-- The node of a row among rows, before levels are given. -/
def rowNode (rows : List Row) (i : Nat) (row : Row) : Node α :=
  { (row.toNode : Node α) with id := i, parent := parentRow rows i, children := childRows rows i }

/-- A tree under construction holds the rows added so far, with parents as found by search. -/
structure Grown (rows : List Row) (s : State α) : Prop where
  size : s.tree.size = rows.length
  root : s.tree.root = none
  node : ∀ i row, rows[i]? = some row → s.tree.get? i = some (rowNode rows i row)
  topLevel : s.topLevel = topRows rows
  parent? : ∀ level, s.branch.parent? level = lastShallower rows level

theorem Grown.nil : Grown [] (⟨Tree.empty, [], []⟩ : State α) := by
  refine ⟨rfl, rfl, fun i row h => ?_, rfl, fun level => ?_⟩
  · rw [List.getElem?_nil] at h
    cases h
  · rw [Branch.parent?_eq, Branch.above, List.take_nil]
    rfl

/-- The nodes of the rows before a new one: its parent has one more child, and nothing else changes. -/
theorem rowNode_snoc_of_lt (row' : Row) (h : i < rows.length) (row : Row) :
    (rowNode (rows ++ [row']) i row : Node α) =
      { rowNode rows i row with
        children := if lastShallower rows row'.indentLevel = some i then childRows rows i ++ [rows.length]
          else childRows rows i } := by
  unfold rowNode
  rw [parentRow_snoc_of_lt row' h, childRows_snoc]
  split <;> simp

/-- The node of a new row has no children yet. -/
theorem rowNode_snoc_length (rows : List Row) (row : Row) :
    (rowNode (rows ++ [row]) rows.length row : Node α) =
      { (row.toNode : Node α) with id := rows.length, parent := lastShallower rows row.indentLevel, children := [] } := by
  have hself : lastShallower rows row.indentLevel ≠ some rows.length := fun h => absurd (lastShallower_lt h) (Nat.lt_irrefl _)
  unfold rowNode
  rw [parentRow_snoc_length, childRows_snoc, childRows_length, if_neg hself, List.append_nil]

/-- A new row goes where the search finds its parent. -/
theorem Grown.add {s : State α} (h : Grown rows s) (row : Row) : Grown (rows ++ [row]) (s.add row) := by
  have hnew : ∀ i row', (rows ++ [row])[i]? = some row' →
      i < rows.length ∧ rows[i]? = some row' ∨ i = rows.length ∧ row' = row := by
    intro i row' hi
    rcases Nat.lt_trichotomy i rows.length with hlt | heq | hgt
    · rw [List.getElem?_append_left hlt] at hi
      exact Or.inl ⟨hlt, hi⟩
    · subst heq
      rw [List.getElem?_concat_length, Option.some.injEq] at hi
      exact Or.inr ⟨rfl, hi.symm⟩
    · have := (List.getElem?_eq_some_iff.mp hi).1
      simp at this
      omega
  have hlevel : ∀ level, (s.branch.extend row.indentLevel rows.length).parent? level = lastShallower (rows ++ [row]) level := by
    intro level
    rw [Branch.parent?_extend, lastShallower_snoc, h.parent?]
  unfold State.add
  rw [h.size, h.parent?]
  -- The children of a row grow only when the new row goes below it, so the cases are whether a parent is found.
  cases hp : lastShallower rows row.indentLevel with
  | none =>
    refine ⟨?_, h.root, fun i row' hi => ?_, ?_, hlevel⟩
    · simp [h.size]
    · rcases hnew i row' hi with ⟨hlt, hrow⟩ | ⟨rfl, rfl⟩
      · rw [get?_push, h.size, if_neg (Nat.ne_of_lt hlt), h.node i row' hrow, rowNode_snoc_of_lt row hlt, hp]
        rfl
      · rw [get?_push, h.size, if_pos rfl, rowNode_snoc_length, hp]
        rfl
    · simp [topRows_snoc, hp, h.topLevel]
  | some parent =>
    refine ⟨?_, h.root, fun i row' hi => ?_, ?_, hlevel⟩
    · simp [h.size]
    · have hparent := lastShallower_lt hp
      rcases hnew i row' hi with ⟨hlt, hrow⟩ | ⟨rfl, rfl⟩
      · rw [get?_link, get?_push, h.size, if_neg (Nat.ne_of_lt hlt), h.node i row' hrow, rowNode_snoc_of_lt row hlt, hp]
        simp only [Option.map_some, if_neg (Nat.ne_of_gt hlt), Option.some.injEq]
        rfl
      · rw [get?_link, get?_push, h.size, if_pos rfl, rowNode_snoc_length, hp]
        simp only [Option.map_some, if_neg (Nat.ne_of_lt hparent)]
        rfl
    · simp [topRows_snoc, hp, h.topLevel]

/-- All rows are where the search finds their parents. -/
theorem grown (rows : List Row) : Grown rows (rows.foldl State.add (⟨Tree.empty, [], []⟩ : State α)) := by
  induction rows using List.reverseRecOn with
  | nil => exact Grown.nil
  | append_singleton rows row ih =>
    rw [List.foldl_append]
    exact ih.add row

/-! ## The root -/

theorem mem_topRows : i ∈ topRows rows ↔ i < rows.length ∧ parentRow rows i = none := by
  simp [topRows]

/-- The first row has no parent. -/
theorem eq_nil_of_topRows_eq_nil (h : topRows rows = []) : rows = [] := by
  cases rows with
  | nil => rfl
  | cons row rows =>
    have hfirst : 0 ∈ topRows (row :: rows) := mem_topRows.mpr ⟨Nat.succ_pos _, rfl⟩
    rw [h] at hfirst
    exact absurd hfirst List.not_mem_nil

/-- The node that groups the top-level rows, if there are several of them. -/
def group? (rows : List Row) : Option NodeId := if (topRows rows).length ≤ 1 then none else some rows.length

/-- A node that groups others is the parent of each, and has them as its children in order. -/
theorem get?_foldl_link {α : Type} (roots : List NodeId) (root : NodeId) (t : Tree α) (i : NodeId) :
    (roots.foldl (fun t id => t.link root id) t).get? i = (t.get? i).map (fun n =>
      { n with
        parent := if i ∈ roots then some root else n.parent
        children := if root = i then n.children ++ roots else n.children }) := by
  induction roots generalizing t with
  | nil =>
    rw [List.foldl_nil]
    cases t.get? i <;> simp
  | cons first roots ih =>
    have hmem : i ∈ first :: roots ↔ first = i ∨ i ∈ roots := by rw [List.mem_cons, eq_comm]
    rw [List.foldl_cons, ih, get?_link, Option.map_map]
    congr 1
    funext n
    by_cases hroot : root = i
    · by_cases hfirst : first = i <;> by_cases hin : i ∈ roots <;> simp [hmem, hroot, hfirst, hin]
    · by_cases hfirst : first = i <;> by_cases hin : i ∈ roots <;> simp [hmem, hroot, hfirst, hin]

theorem size_foldl_link {α : Type} (roots : List NodeId) (root : NodeId) (t : Tree α) :
    (roots.foldl (fun t id => t.link root id) t).size = t.size := by
  induction roots generalizing t with
  | nil => rfl
  | cons first roots ih => rw [List.foldl_cons, ih, size_link]

/-- The node that groups the top-level rows, before levels are given. -/
def groupNode (rows : List Row) : Node α :=
  { Node.ofOperation groupOperation with id := rows.length, children := topRows rows, isSynthetic := true }

/-- What closing makes of the rows: the node of each, and perhaps one that groups those without a parent. -/
structure Closed (rows : List Row) (t : Tree α) : Prop where
  size : t.size = rows.length + (group? rows).toList.length
  root : t.root = (group? rows).or (topRows rows).head?
  node : ∀ i row, rows[i]? = some row →
    t.get? i = some { (rowNode rows i row : Node α) with parent := (parentRow rows i).or (group? rows) }
  group : ∀ g, group? rows = some g → t.get? g = some (groupNode rows)

theorem Grown.close {s : State α} (h : Grown rows s) : Closed rows s.close := by
  have hone : (topRows rows).length ≤ 1 → group? rows = none := fun hle => if_pos hle
  unfold State.close
  rw [h.topLevel]
  -- No top row leaves the tree without a root, one becomes the root, and only more than one are grouped.
  cases htop : topRows rows with
  | nil =>
    have hg := hone (by simp [htop])
    refine ⟨by simp [hg, h.size], by simp [hg, htop, h.root], fun i row hi => ?_, fun g hg' => ?_⟩
    · rw [h.node i row hi, hg, Option.or_none]
      rfl
    · rw [hg] at hg'
      cases hg'
  | cons first roots =>
    cases roots with
    | nil =>
      have hg := hone (by simp [htop])
      refine ⟨by simp [hg, h.size], by simp [hg, htop], fun i row hi => ?_, fun g hg' => ?_⟩
      · rw [get?_setRoot, h.node i row hi, hg, Option.or_none]
        rfl
      · rw [hg] at hg'
        cases hg'
    | cons second roots =>
      have hg : group? rows = some rows.length := by
        unfold group?
        rw [htop]
        exact if_neg (by simp)
      dsimp only
      rw [h.size, ← htop]
      refine ⟨?_, by simp [hg], fun i row hi => ?_, fun g hg' => ?_⟩
      · rw [size_setRoot, size_foldl_link, size_push, h.size, hg]
        rfl
      · have hlt := (List.getElem?_eq_some_iff.mp hi).1
        rw [get?_setRoot, get?_foldl_link, get?_push, h.size, if_neg (Nat.ne_of_lt hlt), h.node i row hi, hg, Option.map_some]
        simp only [if_neg (Nat.ne_of_gt hlt), mem_topRows, hlt, true_and]
        cases hp : parentRow rows i with
        | none => simp
        | some parent => simp [rowNode, hp]
      · rw [hg, Option.some.injEq] at hg'
        subst hg'
        have htop' : rows.length ∉ topRows rows := fun hmem => Nat.lt_irrefl _ (mem_topRows.mp hmem).1
        rw [get?_setRoot, get?_foldl_link, get?_push, h.size, if_pos rfl, Option.map_some, if_neg htop', if_pos rfl]
        simp only [groupNode, Node.ofOperation, List.nil_append]

theorem assignDepth_agrees {α : Type} (t : Tree α) (id : NodeId) : Agrees Node.unleveled t (assignDepth t id) :=
  Agrees.modify t id _ (fun _ => rfl)

theorem assignDepths_agrees {α : Type} (t : Tree α) : Agrees Node.unleveled t (assignDepths t) :=
  Agrees.foldl _ assignDepth_agrees _ t

/-- Levels apart, the tree of rows is what closing makes of them. -/
theorem ofRows_agrees (rows : List Row) : ∃ t : Tree α, Closed rows t ∧ Agrees Node.unleveled t (Tree.ofRows rows) :=
  ⟨_, (grown rows).close, assignDepths_agrees _⟩

/-- Each row is a child of the nearest row before it that is indented less, and comes after its elder siblings. A single row
without such a row is the root, several are grouped in order below a node of their own, and no rows make no tree. What the branch
remembers answers at any time, for every level, as a search back through the rows would. -/
theorem ofRows_parents (rows : List Row) :
    (∀ i row, rows[i]? = some row → ∃ depth, (Tree.ofRows rows : Tree α).get? i = some
      { (row.toNode : Node α) with
        id := i
        parent := (parentRow rows i).or (if (topRows rows).length ≤ 1 then none else some rows.length)
        children := childRows rows i
        depth }) ∧
    (match topRows rows with
      | [] => rows = [] ∧ (Tree.ofRows rows : Tree α) = Tree.empty
      | [root] => (Tree.ofRows rows : Tree α).root = some root ∧ (Tree.ofRows rows : Tree α).size = rows.length
      | roots => (Tree.ofRows rows : Tree α).root = some rows.length ∧
        (Tree.ofRows rows : Tree α).size = rows.length + 1 ∧ ∃ depth, (Tree.ofRows rows : Tree α).get? rows.length = some
          { (Node.ofOperation groupOperation : Node α) with
            id := rows.length, children := roots, isSynthetic := true, depth }) ∧
    ∀ level, (rows.foldl State.add (⟨Tree.empty, [], []⟩ : State α)).branch.parent? level = lastShallower rows level := by
  obtain ⟨t, hclosed, hagrees⟩ := ofRows_agrees (α := α) rows
  have hnode : ∀ {i : NodeId} {n : Node α}, t.get? i = some n → ∃ depth,
      (Tree.ofRows rows : Tree α).get? i = some { n with depth } := by
    intro i n hn
    obtain ⟨m, hm, hmn⟩ := hagrees.get? hn
    refine ⟨m.depth, hm.trans (congrArg some ?_)⟩
    calc m = { m.unleveled with depth := m.depth } := rfl
      _ = { n with depth := m.depth } := by rw [hmn]; rfl
  refine ⟨fun i row hi => hnode (hclosed.node i row hi), ?_, (grown rows).parent?⟩
  have hroot := hagrees.1.trans hclosed.root
  have hsize := hagrees.size_eq.trans hclosed.size
  split
  · rename_i htop
    have hnil := eq_nil_of_topRows_eq_nil htop
    subst hnil
    exact ⟨rfl, rfl⟩
  · rename_i root htop
    have hg : group? rows = none := if_pos (by simp [htop])
    simp only [hg, htop] at hroot hsize
    exact ⟨hroot, hsize⟩
  · rename_i roots hnone hone
    have hg : group? rows = some rows.length := by
      refine if_neg (fun hle => ?_)
      cases htop : topRows rows with
      | nil => exact hnone htop
      | cons first roots =>
        cases roots with
        | nil => exact hone first htop
        | cons second roots => simp [htop] at hle
    simp only [hg] at hroot hsize
    exact ⟨hroot, hsize, hnode (hclosed.group _ hg)⟩

end Outline

end DaxPlan
