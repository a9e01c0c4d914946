import DaxPlan.Issue
import DaxPlan.Number.Quantity
import DaxPlan.Operator

/-!
# Nodes

A node is one operator row of a plan, with its place in the tree, what enrichment finds out about it, and its rectangle in the
layout.
-/

namespace DaxPlan

/-- A point of the layout. -/
structure Point (α : Type) where
  x : α
  y : α
  deriving Repr

instance {α : Type} [BEq α] : BEq (Point α) where
  beq p q := p.x == q.x && p.y == q.y

/-- A node of a plan tree. -/
structure Node (α : Type) where
  id : NodeId
  parent : Option NodeId
  children : List NodeId
  /-- The place among the rows of the text, from one; zero for a node that no row stands for. -/
  rowNumber : Nat
  /-- The level in the tree, zero at the root. -/
  depth : Nat
  /-- The indentation level of the row as written. -/
  indentLevel : Nat
  /-- The operator token: what stands before the first colon outside quotes and brackets. -/
  operation : String
  /-- What stands after that colon. -/
  details : String
  /-- The line with identifiers replaced by their display names, if one was replaced. -/
  resolvedText : Option String
  operator : Operator
  logicalOp : Option String
  recordCount : Option Nat
  duration : Option α
  cpuTime : Option α
  estimatedRows : Option Nat
  estimatedKbytes : Option Nat
  costPercent : Option α
  engine : Engine
  isCacheHit : Bool
  /-- The table a storage engine row reads. -/
  objectName : Option String
  /-- The places of the node's issues in the plan's list. -/
  issues : List Nat
  /-- The node groups several top-level rows and stands for none. -/
  isSynthetic : Bool
  x : α
  y : α
  width : α
  height : α
  isCollapsed : Bool
  deriving Repr

namespace Node

variable {α : Type}

/-- A detached node for an operator token, with nothing known about it. -/
def ofOperation [Quantity α] (operation : String) : Node α where
  id := 0
  parent := none
  children := []
  rowNumber := 0
  depth := 0
  indentLevel := 0
  operation := operation
  details := ""
  resolvedText := none
  operator := Operator.ofToken operation
  logicalOp := none
  recordCount := none
  duration := none
  cpuTime := none
  estimatedRows := none
  estimatedKbytes := none
  costPercent := none
  engine := .unknown
  isCacheHit := false
  objectName := none
  issues := []
  isSynthetic := false
  x := Quantity.zero
  y := Quantity.zero
  width := Quantity.zero
  height := Quantity.zero
  isCollapsed := false

/-- An operation and its details as one line. -/
def joinLine (operation details : String) : String :=
  if details.isEmpty then operation else operation ++ ": " ++ details

/-- The plan line as written. -/
def lineText (n : Node α) : String := joinLine n.operation n.details

/-- The line with display names where there are some, and as written otherwise. -/
def displayText (n : Node α) : String := n.resolvedText.getD n.lineText

def isLeaf (n : Node α) : Bool := n.children.isEmpty

/-- The children that take part in the layout: none below a collapsed node. -/
def visibleChildren (n : Node α) : List NodeId := if n.isCollapsed then [] else n.children

/-- The top left corner. -/
def position (n : Node α) : Point α := ⟨n.x, n.y⟩

/-- The middle between the left and the right edge. -/
def centerX [Quantity α] (n : Node α) : α := n.x + Quantity.half n.width

end Node

end DaxPlan
