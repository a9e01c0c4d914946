import DaxPlan.Settings
import DaxPlan.Tree

/-!
# First placement of the visible nodes

The width of a visible subtree is that of its node or of its children side by side, whichever is larger. From the root down each
node hands out places to its children, from left to right; from the leaves up each node is put over the middle of its children,
unless it is wider than they are and then stands at the left of its place. A level lies as far below the one above it as nodes
are high, and the vertical gap.
-/

namespace DaxPlan.Layout

variable {α : Type} [Quantity α]

/-- A quantity for each node of the arena. -/
abbrev Table (α : Type) := Array α

/-- The value for a node. -/
def Table.get (table : Table α) (id : NodeId) : α := table[id]?.getD Quantity.zero

/-- The children of a node that take part in the layout. -/
def visibleChildren (t : Tree α) (id : NodeId) : List NodeId := ((t.get? id).map Node.visibleChildren).getD []

/-- Children side by side: their widths and the gaps between them. -/
def childrenSpan (children : List NodeId) (widths : Table α) (spacing : α) : α :=
  Quantity.sum (children.map widths.get) + Quantity.ofNat (children.length - 1) * spacing

/-- Notes the width of a node's visible subtree, once those of its children are noted. -/
def noteWidth (t : Tree α) (spacing : α) (id : NodeId) (widths : Table α) : Table α :=
  match t.get? id with
  | none => widths
  | some n =>
    let children := n.visibleChildren
    widths.setIfInBounds id
      (if children.isEmpty then n.width else Quantity.max n.width (childrenSpan children widths spacing))

/-- The width of each visible subtree, from the leaves up. -/
def subtreeWidths (t : Tree α) (order : List NodeId) (spacing : α) : Table α :=
  order.foldr (noteWidth t spacing) (Array.replicate t.size Quantity.zero)

/-- Hands out places to children from a left edge on. -/
def handOut (widths : Table α) (spacing : α) : List NodeId → α → Table α → Table α
  | [], _, places => places
  | child :: rest, left, places =>
    handOut widths spacing rest (left + (widths.get child + spacing)) (places.setIfInBounds child left)

/-- Hands out places to the children of a node. A node wider than its children leaves room on both sides. -/
def handOutBelow (t : Tree α) (widths : Table α) (spacing : α) (places : Table α) (id : NodeId) : Table α :=
  match t.get? id with
  | none => places
  | some n =>
    let children := n.visibleChildren
    if children.isEmpty then places
    else
      let span := childrenSpan children widths spacing
      let left := places.get id
      let left := if Quantity.lt span n.width then left + Quantity.half (n.width - span) else left
      handOut widths spacing children left places

/-- The left edge of each node's place, from the root down. -/
def places (t : Tree α) (order : List NodeId) (widths : Table α) (spacing : α) : Table α :=
  order.foldl (handOutBelow t widths spacing) (Array.replicate t.size Quantity.zero)

/-- The left edge of a node once its children are in place: over their middle, or that of its own place. -/
def leftEdge (t : Tree α) (widths places : Table α) (spacing : α) (n : Node α) : α :=
  match n.visibleChildren.head?.bind t.get?, n.visibleChildren.getLast?.bind t.get? with
  | some first, some last =>
    if Quantity.le n.width (childrenSpan n.visibleChildren widths spacing) then
      Quantity.half (first.x + (last.x + last.width)) - Quantity.half n.width
    else places.get n.id
  | _, _ => places.get n.id

/-- Puts a node in place, once its children are. -/
def placeNode (config : LayoutConfig α) (widths places : Table α) (id : NodeId) (t : Tree α) : Tree α :=
  match t.get? id with
  | none => t
  | some n =>
    let x := leftEdge t widths places config.horizontalSpacing n
    let y := Quantity.ofNat n.depth * config.levelHeight
    t.modify id (fun n => { n with x, y })

/-- Puts the visible nodes in place, from the leaves up. -/
def place (config : LayoutConfig α) (order : List NodeId) (t : Tree α) : Tree α :=
  let widths := subtreeWidths t order config.horizontalSpacing
  order.foldr (placeNode config widths (places t order widths config.horizontalSpacing)) t

/-- Gives nodes without a size the standard one. -/
def applyDefaultSize (config : LayoutConfig α) (n : Node α) : Node α :=
  { n with
    width := if Quantity.le n.width Quantity.zero then config.nodeWidth else n.width
    height := if Quantity.le n.height Quantity.zero then config.nodeHeight else n.height }

/-- Gives the visible nodes without a size the standard one. -/
def applyDefaultSizes (config : LayoutConfig α) (order : List NodeId) (t : Tree α) : Tree α :=
  order.foldl (fun t id => t.modify id (applyDefaultSize config)) t

end DaxPlan.Layout
