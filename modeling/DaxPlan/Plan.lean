import DaxPlan.Tree

/-!
# Plans

A plan is a tree with the times and the diagnostics derived for it. Its list of nodes is taken once, when the plan is made;
afterwards node fields change but nodes are neither added nor moved.
-/

namespace DaxPlan

/-- Which representation of a query a plan shows. -/
inductive PlanKind where
  | physical | logical
  deriving DecidableEq, Repr

def PlanKind.name : PlanKind → String
  | physical => "physical"
  | logical => "logical"

/-- How far a plan has been processed. -/
inductive PlanState where
  | raw | parsed | enriched | layoutComplete
  deriving DecidableEq, Repr

namespace PlanState

def name : PlanState → String
  | raw => "raw"
  | parsed => "parsed"
  | enriched => "enriched"
  | layoutComplete => "layout_complete"

/-- Later states rank higher. -/
def rank : PlanState → Nat
  | raw => 0
  | parsed => 1
  | enriched => 2
  | layoutComplete => 3

end PlanState

/-- A plan tree with derived times and issues; times are in milliseconds. -/
structure Plan (α : Type) where
  kind : PlanKind
  /-- Ties the plan to the traced query. -/
  correlationId : String
  tree : Tree α
  /-- The ids of the tree's nodes in pre-order. -/
  allNodes : List NodeId
  issues : List (Issue α)
  totalDuration : α
  storageEngineDuration : α
  storageEngineCpu : α
  storageEngineNetParallel : α
  formulaEngineDuration : α
  cacheHitCount : Nat
  storageEngineQueryCount : Nat
  state : PlanState
  deriving Repr

namespace Plan

variable {α : Type}

/-- The plan of a tree, before anything is derived for it. -/
def parsed [Quantity α] (kind : PlanKind) (correlationId : String) (tree : Tree α) : Plan α where
  kind := kind
  correlationId := correlationId
  tree := tree
  allNodes := tree.preOrder
  issues := []
  totalDuration := Quantity.zero
  storageEngineDuration := Quantity.zero
  storageEngineCpu := Quantity.zero
  storageEngineNetParallel := Quantity.zero
  formulaEngineDuration := Quantity.zero
  cacheHitCount := 0
  storageEngineQueryCount := 0
  state := .parsed

@[simp] theorem tree_parsed [Quantity α] (kind : PlanKind) (correlationId : String) (tree : Tree α) :
    (parsed kind correlationId tree).tree = tree := rfl

/-- The plan of a tree, before anything is derived for it. The links of the tree must lead to nodes. -/
def ofTree [Quantity α] (kind : PlanKind) (correlationId : String) (tree : Tree α) : Except (Error α) (Plan α) := do
  tree.checkLinks
  return parsed kind correlationId tree

/-- The nodes in pre-order. -/
def nodes (p : Plan α) : List (Node α) := p.tree.nodesAt p.allNodes

def nodeCount (p : Plan α) : Nat := p.allNodes.length

def isEmpty (p : Plan α) : Bool := p.allNodes.isEmpty

/-- Changes the tree of a plan. -/
def mapTree (p : Plan α) (f : Tree α → Tree α) : Plan α := { p with tree := f p.tree }

/-- Records an issue on the plan, and its place on the node it is about, if that node is there. -/
def addIssue (p : Plan α) (issue : Issue α) : Plan α :=
  { p with
    tree := p.tree.modify issue.node (fun n => { n with issues := n.issues ++ [p.issues.length] })
    issues := p.issues ++ [issue] }

/-- The places of the issues, errors first and otherwise in the order they were recorded. -/
def issueOrder (p : Plan α) : List Nat :=
  let ranked := p.issues.zipIdx.map (fun i => (i.1.severity.rank, i.2))
  (ranked.mergeSort (fun a b => a.1 ≤ b.1)).map Prod.snd

/-- The issues, errors first and otherwise in the order they were recorded. -/
def sortedIssues (p : Plan α) : List (Issue α) := p.issueOrder.filterMap (p.issues[·]?)

def hasWarnings (p : Plan α) : Bool := p.issues.any (·.severity.isWarningOrAbove)

/-- Moves the plan on to a state. A plan does not go back: an earlier state is refused, with `false`, and changes nothing. -/
def advance (p : Plan α) (state : PlanState) : Plan α × Bool :=
  if state.rank < p.state.rank then (p, false) else ({ p with state }, true)

/-- The plan moved on to a state, unless it is past it. -/
def advanceTo (p : Plan α) (state : PlanState) : Plan α := (p.advance state).1

/-- Sets the duration of the query and of the storage engine. What is left is the formula engine's, if anything is. -/
def setDurations [Quantity α] (p : Plan α) (total storage : α) : Plan α :=
  let left := total - storage
  { p with
    totalDuration := total
    storageEngineDuration := storage
    formulaEngineDuration := if Quantity.lt Quantity.zero left then left else Quantity.zero }

/-- A quantity as a share of a total, in percent. -/
def percentOf [Quantity α] (x total : α) : α := x * Quantity.ofNat 100 / total

/-- The storage engine's share of the total, if there is a total. -/
def storageEnginePercent [Quantity α] (p : Plan α) : Option α :=
  if Quantity.lt Quantity.zero p.totalDuration then some (percentOf p.storageEngineDuration p.totalDuration) else none

/-- The number of issues of a severity. -/
def countIssues (p : Plan α) (severity : Severity) : Nat := p.issues.countP (·.severity == severity)

/-- The plan in one line. -/
def summary [QuantityText α] (p : Plan α) : String :=
  let ms (x : α) : String := QuantityText.fixed 0 x
  s!"{p.nodeCount} nodes, total {ms p.totalDuration} ms (FE {ms p.formulaEngineDuration} ms, SE " ++
    s!"{ms p.storageEngineDuration} ms), {p.storageEngineQueryCount} SE queries, {p.cacheHitCount} cache hits, " ++
    s!"{p.countIssues .error} error(s), {p.countIssues .warning} warning(s)"

end Plan

end DaxPlan
