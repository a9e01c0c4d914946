import DaxPlan.Layout.Bounds
import DaxPlan.Layout.Diff
import DaxPlan.Layout.Footprint
import DaxPlan.Layout.Overlap

/-!
# The layout engine

A layout run gives sizes to the visible nodes that have none, places them, and resolves overlaps. The engine remembers what was
visible and where after the last run, so that each run can tell what has changed. Hidden nodes keep the geometry they had.
-/

namespace DaxPlan.Layout

/-- Whether the geometry goes with the collapse flags. -/
inductive LayoutState where
  | unlaid | laid
  deriving DecidableEq, Repr

def LayoutState.name : LayoutState → String
  | unlaid => "unlaid"
  | laid => "laid"

/-- What an engine remembers. -/
structure Engine (α : Type) where
  config : LayoutConfig α
  state : LayoutState
  /-- The ids visible after the last run, in ascending order. -/
  visible : List NodeId
  /-- Where those nodes were. -/
  positions : List (NodeId × Point α)
  stats : Stats
  deriving Repr

namespace Engine

variable {α : Type} [Quantity α]

/-- An engine that has laid nothing out. -/
def new (config : LayoutConfig α) : Engine α := ⟨config, .unlaid, [], [], {}⟩

/-- The ids with their positions in a tree. -/
def positionsOf (t : Tree α) (order : List NodeId) : List (NodeId × Point α) :=
  (t.nodesAt order).map (fun n => (n.id, n.position))

/-- What has changed from what the engine remembers to a tree laid out. -/
def changes (e : Engine α) (t : Tree α) (order : List NodeId) : Diff α where
  entered := (idSet order).filter (fun id => !e.visible.contains id)
  exited := e.visible.filter (fun id => !(idSet order).contains id)
  moved := (positionsOf t order).filterMap (fun now => do
    let start ← e.positions.lookup now.1
    if start != now.2 then some ⟨now.1, start, now.2⟩ else none)

/-- The geometry of a tree, computed anew: its nodes and what the run did. -/
def arrange (config : LayoutConfig α) (t : Tree α) : Tree α × Stats :=
  let order := t.visiblePreOrder
  resolveOverlaps config order (place config order (applyDefaultSizes config order t))

/-- Lays a plan out. -/
def layout (e : Engine α) (p : Plan α) : Engine α × Plan α × Diff α :=
  let (tree, stats) := arrange e.config p.tree
  let order := p.tree.visiblePreOrder
  let diff := e.changes tree order
  ({ e with state := .laid, visible := idSet order, positions := positionsOf tree order, stats },
    { p with tree }.advanceTo .layoutComplete, diff)

/-- Folds nodes until the visible footprint fits the target, and tells how many. -/
def autoCollapse (e : Engine α) (p : Plan α) : Engine α × Plan α × Nat :=
  let (tree, folded) := p.tree.autoCollapse e.config.autoCollapseTarget e.config.autoCollapseMaxIterations
  (if folded.isEmpty then e else { e with state := .unlaid }, { p with tree }, folded.length)

/-- Folds an oversized plan and lays it out. -/
def initialLayout (e : Engine α) (p : Plan α) : Engine α × Plan α × Diff α :=
  let (e, p, _) := e.autoCollapse p
  e.layout p

/-- Flips the collapse flag of a node that has children. -/
def flip (n : Node α) : Node α := if n.isLeaf then n else { n with isCollapsed := !n.isCollapsed }

/-- Lays a plan out, where the action that asks for it may be refused. -/
def layoutAnswer (e : Engine α) (p : Plan α) : Engine α × Plan α × Except (Error α) (Diff α) :=
  let (e, p, diff) := e.layout p
  (e, p, .ok diff)

/-- Flips the collapse flag of a node and lays the plan out. A leaf has nothing to fold. A node that is not there is refused. -/
def toggleCollapse (e : Engine α) (p : Plan α) (id : NodeId) : Engine α × Plan α × Except (Error α) (Diff α) :=
  if p.tree.contains id then e.layoutAnswer (p.mapTree (·.modify id flip)) else (e, p, .error (.unknownNode id))

/-- Unfolds every node and lays the plan out. -/
def expandAll (e : Engine α) (p : Plan α) : Engine α × Plan α × Diff α :=
  e.layout (p.mapTree (·.map (fun n => { n with isCollapsed := false })))

/-- Folds every node with children but the root, unfolds the others, and lays the plan out. -/
def collapseAll (e : Engine α) (p : Plan α) : Engine α × Plan α × Diff α :=
  e.layout (p.mapTree (fun t => t.map (fun n => { n with isCollapsed := !n.isLeaf && some n.id != t.root })))

/-- Unfolds all ancestors of a node, so that it becomes visible, and lays the plan out. A node that is not there is refused. -/
def expandPathTo (e : Engine α) (p : Plan α) (id : NodeId) : Engine α × Plan α × Except (Error α) (Diff α) :=
  if p.tree.contains id then
    e.layoutAnswer (p.mapTree (fun t => (t.ancestors id).foldl (fun t a => t.setCollapsed a false) t))
  else (e, p, .error (.unknownNode id))

end Engine

end DaxPlan.Layout
