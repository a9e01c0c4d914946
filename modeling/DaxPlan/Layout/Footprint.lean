import DaxPlan.Tree

/-!
# Footprints and auto-collapse

The footprint of a node is the number of leaf places its subtree takes in the visible layout; a collapsed node takes one, like a
leaf. Auto-collapse folds nodes, the deepest first, until the root's footprint is small enough: among nodes of one level the one
with the largest footprint, and among those the one with the lowest id.
-/

namespace DaxPlan.Tree

variable {α : Type}

/-- A node that shows no children. -/
def showsNoChildren (t : Tree α) (id : NodeId) : Bool := (t.get? id).any (·.visibleChildren.isEmpty)

/-- The number of leaf places of a node; zero for a node that is not there. -/
def footprint (t : Tree α) (id : NodeId) : Nat := (t.visibleSubtree id).countP t.showsNoChildren

/-- The footprints of all visible nodes, by id, from the leaves up; zero for hidden nodes. -/
def visibleFootprints (t : Tree α) : Array Nat :=
  t.visiblePreOrder.foldr (fun id table =>
    let children := ((t.get? id).map Node.visibleChildren).getD []
    let places := if children.isEmpty then 1 else Number.total (children.map (fun c => table[c]?.getD 0))
    table.setIfInBounds id places) (Array.replicate t.size 0)

/-- The order of collapse: a deeper node comes first, then one with a larger footprint, then one with a lower id. -/
def foldsBefore (footprints : Array Nat) (a b : Node α) : Bool :=
  let places (n : Node α) : Nat := footprints[n.id]?.getD 0
  b.depth < a.depth ||
    (b.depth == a.depth && (places b < places a || (places b == places a && a.id ≤ b.id)))

/-- The visible nodes that show children. -/
def unfolded (t : Tree α) : List (Node α) := (t.nodesAt t.visiblePreOrder).filter (fun n => !n.visibleChildren.isEmpty)

/-- The node that auto-collapse folds next. -/
def collapseCandidate? (t : Tree α) : Option NodeId :=
  let footprints := t.visibleFootprints
  match t.unfolded with
  | [] => none
  | first :: rest => some (rest.foldl (fun best n => if foldsBefore footprints n best then n else best) first).id

/-- Sets the collapse flag of a node. -/
def setCollapsed (t : Tree α) (id : NodeId) (value : Bool) : Tree α := t.modify id (fun n => { n with isCollapsed := value })

/-- Folds nodes until the root's footprint is at most the target, nothing is left to fold, or so many have been folded. Answers
with the folded nodes in order. -/
def autoCollapse (target : Nat) : Nat → Tree α → Tree α × List NodeId
  | 0, t => (t, [])
  | iterations + 1, t =>
    match t.root with
    | none => (t, [])
    | some root =>
      if t.footprint root ≤ target then (t, [])
      else match t.collapseCandidate? with
        | none => (t, [])
        | some id =>
          let (folded, ids) := autoCollapse target iterations (t.setCollapsed id true)
          (folded, id :: ids)

end DaxPlan.Tree
