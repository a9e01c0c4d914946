import DaxPlan.Row
import DaxPlan.Tree

/-!
# From rows to a tree

Rows become a tree by their levels. While rows are added, the last row of each level on the current branch is remembered: a row
becomes a child of the one remembered for the level above its own, and where none is, of the one for the closest level above
that. A row without either is a top-level row. A single top-level row is the root; several are grouped below a node that stands
for no row.
-/

namespace DaxPlan

namespace Outline

/-- The operation of the node that groups several top-level rows. -/
def groupOperation : String := "Plan"

/-- The last row at each level of the current branch. -/
abbrev Branch := List (Option NodeId)

/-- The row that a row of a level goes below. -/
def Branch.parent? (branch : Branch) (level : Nat) : Option NodeId :=
  if level == 0 then none
  else
    match (branch[level - 1]?).join with
    | some id => some id
    | none => (branch.take (level - 1)).reverse.findSome? id

/-- The branch after a row of a level: deeper levels are forgotten, and levels that were passed over are empty. -/
def Branch.extend (branch : Branch) (level : Nat) (id : NodeId) : Branch :=
  let kept := branch.take level
  kept ++ List.replicate (level - kept.length) none ++ [some id]

/-- A tree under construction. -/
structure State (α : Type) where
  tree : Tree α
  topLevel : List NodeId
  branch : Branch

/-- Adds a row. -/
def State.add {α : Type} [Quantity α] (s : State α) (row : Row) : State α :=
  let id := s.tree.size
  let tree := s.tree.push row.toNode
  let branch := s.branch.extend row.indentLevel id
  match s.branch.parent? row.indentLevel with
  | some parent => { s with tree := tree.link parent id, branch }
  | none => { tree, topLevel := s.topLevel ++ [id], branch }

/-- Chooses the root: the one top-level row, or a node that groups them. -/
def State.close {α : Type} [Quantity α] (s : State α) : Tree α :=
  match s.topLevel with
  | [] => s.tree
  | [root] => s.tree.setRoot root
  | roots =>
    let root := s.tree.size
    let tree := s.tree.push { Node.ofOperation groupOperation with isSynthetic := true }
    (roots.foldl (fun t id => t.link root id) tree).setRoot root

/-- The level that a node belongs on: one below the level of its parent, and zero without a parent. -/
def structuralDepth {α : Type} (t : Tree α) (id : NodeId) : Nat :=
  match t.parent? id with
  | none => 0
  | some p => ((t.get? p).map Node.depth).getD 0 + 1

/-- Puts a node on the level it belongs on. -/
def assignDepth {α : Type} (t : Tree α) (id : NodeId) : Tree α :=
  t.modify id (fun n => { n with depth := structuralDepth t id })

/-- Gives each node its level, parents before their children. -/
def assignDepths {α : Type} (t : Tree α) : Tree α := t.preOrder.foldl assignDepth t

end Outline

/-- The tree of a list of rows. -/
def Tree.ofRows {α : Type} [Quantity α] (rows : List Row) : Tree α :=
  Outline.assignDepths (rows.foldl Outline.State.add ⟨Tree.empty, [], []⟩).close

/-- The tree of a plan text. -/
def Tree.ofText {α : Type} [Quantity α] (config : ParserConfig) (text : String) : Tree α :=
  Tree.ofRows (Row.ofText config text)

end DaxPlan
