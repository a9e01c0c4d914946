import DaxPlan.Json
import DaxPlan.Layout.Engine

/-!
# Reports

A plan that has been laid out is reported as text, with an outline of its visible nodes, or as a JSON value with all it holds.
-/

namespace DaxPlan

/-- A plan, with the logical plan that goes with it, and what was found when it was laid out. -/
structure Report (α : Type) where
  plan : Plan α
  logical : Option (Plan α)
  layout : Layout.Stats
  bounds : Option (Layout.Bounds α)

namespace Report

variable {α : Type}

/-! ## The outline -/

/-- A visible node in the outline, and for a folded one the number of nodes hidden below it. -/
structure OutlineLine (α : Type) where
  node : Node α
  hidden : Option Nat

/-- The line of a node. -/
def outlineLine (t : Tree α) (n : Node α) : OutlineLine α :=
  ⟨n, if n.isCollapsed && !n.isLeaf then some (t.descendants n.id).length else none⟩

/-- One line for each visible node, in pre-order. -/
def outline (t : Tree α) : List (OutlineLine α) := (t.nodesAt t.visiblePreOrder).map (outlineLine t)

/-- A text between a blank and nothing, if there is one. -/
def suffix (text : Option String) : String := (text.map (" " ++ ·)).getD ""

/-- The text of an outline line: the node's line, its engine, times and records, and marks for the cache, hidden nodes and
issues. -/
def OutlineLine.text [QuantityText α] (line : OutlineLine α) : String :=
  let n := line.node
  let time := n.duration.map (fun d =>
    QuantityText.fixed 0 d ++ " ms" ++ suffix (n.costPercent.map (fun c => "(" ++ QuantityText.fixed 1 c ++ "%)")))
  n.displayText ++ "  (" ++ n.engine.name ++ ")" ++ suffix time ++
    suffix (n.recordCount.map (fun records => s!"{records} rows")) ++
    suffix (if n.isCacheHit then some "[cache]" else none) ++
    suffix (line.hidden.map (fun hidden => s!"[+{hidden} hidden]")) ++
    suffix (if n.issues.isEmpty then none else some s!"!{n.issues.length}")

/-! ## The text -/

/-- The lines of an issue. -/
def issueLines (i : Issue α) : List String :=
  s!"  [{i.severity.name}] node {nodeIdText i.node}: {i.description}" ::
    (i.remediation.map ("      " ++ ·)).toList

/-- The lines of a report. -/
def lines [Quantity α] [QuantityText α] (r : Report α) : List String :=
  let share := r.plan.storageEnginePercent.map (fun percent =>
    "Storage engine share: " ++ QuantityText.fixed 1 percent ++ "%")
  let issues := r.plan.sortedIssues
  let indent (depth : Nat) : String := String.ofList (List.replicate (2 * depth) ' ')
  [r.plan.summary] ++ share.toList ++
    (if issues.isEmpty then [] else ["", "Issues:"] ++ issues.flatMap issueLines) ++
    ["", "Plan:"] ++ (outline r.plan.tree).map (fun line => "  " ++ indent line.node.depth ++ line.text) ++
    (match r.logical with
      | some logical => ["", "Logical plan: " ++ logical.summary]
      | none => []) ++
    (if r.layout.converged then [] else ["", s!"Layout stopped after {r.layout.rounds} overlap rounds"])

/-- A report as text. -/
def text [Quantity α] [QuantityText α] (r : Report α) : String := String.join (r.lines.map (· ++ "\n"))

/-! ## The JSON value -/

/-- An issue as a record. -/
def issueToJson [Quantity α] (i : Issue α) : Json α :=
  .object [
    ("kind", .text i.kind.name),
    ("severity", .text i.severity.name),
    ("affected_node_id", .ofNat i.node),
    ("description", .text i.description),
    ("remediation", .ofOption .text i.remediation),
    ("metric_value", .ofOption .ofQuantity (i.metric.map Prod.fst)),
    ("threshold", .ofOption .ofQuantity (i.metric.map Prod.snd))]

/-- A node as a record, with its issues. -/
def nodeToJson [Quantity α] (issues : List (Issue α)) (n : Node α) : Json α :=
  .object [
    ("id", .ofNat n.id),
    ("parent", .ofOption .ofNat n.parent),
    ("children", .array (n.children.map .ofNat)),
    ("row_number", .ofNat n.rowNumber),
    ("depth", .ofNat n.depth),
    ("indent_level", .ofNat n.indentLevel),
    ("raw_operation_text", .text n.operation),
    ("details", .text n.details),
    ("resolved_operation_text", .ofOption .text n.resolvedText),
    ("operator", .text n.operator.name),
    ("logical_op", .ofOption .text n.logicalOp),
    ("record_count", .ofOption .ofNat n.recordCount),
    ("duration_ms", .ofOption .ofQuantity n.duration),
    ("cpu_time_ms", .ofOption .ofQuantity n.cpuTime),
    ("estimated_rows", .ofOption .ofNat n.estimatedRows),
    ("estimated_kbytes", .ofOption .ofNat n.estimatedKbytes),
    ("cost_percent", .ofOption .ofQuantity n.costPercent),
    ("engine_kind", .text n.engine.name),
    ("is_cache_hit", .bool n.isCacheHit),
    ("object_name", .ofOption .text n.objectName),
    ("issues", .array ((n.issues.filterMap (issues[·]?)).map issueToJson)),
    ("is_synthetic", .bool n.isSynthetic),
    ("x", .ofQuantity n.x),
    ("y", .ofQuantity n.y),
    ("width", .ofQuantity n.width),
    ("height", .ofQuantity n.height),
    ("subtree_collapsed", .bool n.isCollapsed)]

/-- A plan as a record. -/
def planToJson [Quantity α] (p : Plan α) : Json α :=
  .object [
    ("kind", .text p.kind.name),
    ("correlation_id", .text p.correlationId),
    ("tree", .object [
      ("nodes", .array (p.tree.nodes.toList.map (nodeToJson p.issues))),
      ("root", .ofOption .ofNat p.tree.root)]),
    ("all_nodes", .array (p.allNodes.map .ofNat)),
    ("issues", .array (p.issues.map issueToJson)),
    ("total_duration_ms", .ofQuantity p.totalDuration),
    ("storage_engine_duration_ms", .ofQuantity p.storageEngineDuration),
    ("storage_engine_cpu_ms", .ofQuantity p.storageEngineCpu),
    ("storage_engine_net_parallel_ms", .ofQuantity p.storageEngineNetParallel),
    ("formula_engine_duration_ms", .ofQuantity p.formulaEngineDuration),
    ("cache_hit_count", .ofNat p.cacheHitCount),
    ("storage_engine_query_count", .ofNat p.storageEngineQueryCount),
    ("state", .text p.state.name)]

/-- The numbers of a layout run as a record. -/
def statsToJson (s : Layout.Stats) : Json α :=
  .object [
    ("visible_nodes", .ofNat s.visibleNodes),
    ("rounds", .ofNat s.rounds),
    ("shifts", .ofNat s.shifts),
    ("converged", .bool s.converged)]

/-- A rectangle as a record. -/
def boundsToJson [Quantity α] (b : Layout.Bounds α) : Json α :=
  .object [("x", .ofQuantity b.x), ("y", .ofQuantity b.y), ("width", .ofQuantity b.width), ("height", .ofQuantity b.height)]

/-- A report as a record; it has a field for the logical plan if there is one. -/
def toJson [Quantity α] [QuantityText α] (r : Report α) : Json α :=
  .object ([
    ("summary", .text r.plan.summary),
    ("layout", statsToJson r.layout),
    ("bounds", .ofOption boundsToJson r.bounds),
    ("plan", planToJson r.plan)] ++ (r.logical.map (fun logical => ("logical", planToJson logical))).toList)

/-- The report of a plan: the plan is laid out for it. -/
def ofPlan [Quantity α] (config : LayoutConfig α) (plan : Plan α) (logical : Option (Plan α)) : Report α :=
  let (engine, laid, _) := (Layout.Engine.new config).initialLayout plan
  ⟨laid, logical, engine.stats, laid.bounds⟩

end Report

end DaxPlan
