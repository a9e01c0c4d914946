import DaxPlan.Plan

/-!
# Bounds of a layout

The bounds are the smallest rectangle around the rectangles of all visible nodes.
-/

namespace DaxPlan.Layout

/-- A rectangle by its top left corner and its size. -/
structure Bounds (α : Type) where
  x : α
  y : α
  width : α
  height : α
  deriving Repr

variable {α : Type} [Quantity α]

/-- The smallest rectangle around two. -/
def Bounds.union (a b : Bounds α) : Bounds α :=
  let x := Quantity.min a.x b.x
  let y := Quantity.min a.y b.y
  let right := Quantity.max (a.x + a.width) (b.x + b.width)
  let bottom := Quantity.max (a.y + a.height) (b.y + b.height)
  ⟨x, y, right - x, bottom - y⟩

/-- The rectangle of a node. -/
def Bounds.ofNode (n : Node α) : Bounds α := ⟨n.x, n.y, n.width, n.height⟩

/-- The rectangle around several, joined from left to right. -/
def Bounds.unionAll : List (Bounds α) → Option (Bounds α)
  | [] => none
  | first :: rest => some (rest.foldl Bounds.union first)

end DaxPlan.Layout

namespace DaxPlan

/-- The rectangle around the visible nodes of a plan; none if there are none. -/
def Plan.bounds {α : Type} [Quantity α] (p : Plan α) : Option (Layout.Bounds α) :=
  Layout.Bounds.unionAll ((p.tree.nodesAt p.tree.visiblePreOrder).map Layout.Bounds.ofNode)

end DaxPlan
