import DaxPlan.Plan

/-!
# Cross reference of a logical and a physical plan

The rows of a logical plan are matched with those of the physical plan, both in pre-order. Each logical row takes the next
physical row with the same operation, counted from behind the last one taken; if there is none it takes nothing. A logical node
that found its partner gets the partner's engine and record count.
-/

namespace DaxPlan

namespace CrossReference

variable {α : Type}

/-- The first node with an operation, and the nodes after it. -/
def nextMatch? (operation : String) : List (Node α) → Option (Node α × List (Node α))
  | [] => none
  | n :: rest => if n.operation == operation then some (n, rest) else nextMatch? operation rest

/-- The matches of logical nodes with physical ones, from left to right. -/
def pairs : List (Node α) → List (Node α) → List (NodeId × Node α)
  | [], _ => []
  | l :: logical, physical =>
    match nextMatch? l.operation physical with
    | some (partner, rest) => (l.id, partner) :: pairs logical rest
    | none => pairs logical physical

/-- Gives a node the engine and the record count of its partner. -/
def adopt (partner n : Node α) : Node α := { n with engine := partner.engine, recordCount := partner.recordCount }

end CrossReference

/-- Matches a logical plan with a physical one, and tells how many nodes found a partner. -/
def Plan.crossReference {α : Type} (logical physical : Plan α) : Plan α × Nat :=
  let pairs := CrossReference.pairs logical.nodes physical.nodes
  (logical.mapTree (fun t => pairs.foldl (fun t pair => t.modify pair.1 (CrossReference.adopt pair.2)) t), pairs.length)

end DaxPlan
