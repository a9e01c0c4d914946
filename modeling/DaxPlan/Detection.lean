import DaxPlan.Plan
import DaxPlan.Query
import DaxPlan.Settings

/-!
# Detection of issues

Two rules are applied to each node of a plan, in pre-order. A spool that holds more records than a threshold materializes too
much; the threshold for an error is looked at first. A storage engine row whose query calls back into the formula engine for
every row cannot be cached.
-/

namespace DaxPlan

namespace Detection

/-- What to do about a callback for every row. -/
def callbackRemediation : String :=
  "The storage engine calls back into the formula engine once per row and cannot cache the result. " ++
  "Move the row-level expression out of the iterator: precompute it as a calculated column, " ++
  "replace IF/DIVIDE logic with filters, or aggregate first and apply the calculation to the aggregated values."

/-- What to do about a large spool. -/
def materializationRemediation : String :=
  "Reduce the rows materialized by this spool: apply filters earlier, " ++
  "aggregate at a coarser granularity, or avoid iterating over large tables inside the measure."

/-- The severity of a record count, and the threshold it exceeds. -/
def exceeded? (thresholds : IssueThresholds) (records : Nat) : Option (Severity × Nat) :=
  if thresholds.errorRecords < records then some (.error, thresholds.errorRecords)
  else if thresholds.warningRecords < records then some (.warning, thresholds.warningRecords)
  else none

variable {α : Type}

/-- The issue of a spool that holds too many records. -/
def materialization? [Quantity α] (thresholds : IssueThresholds) (n : Node α) : Option (Issue α) := do
  guard n.operator.isMaterializing
  let records ← n.recordCount
  let (severity, threshold) ← exceeded? thresholds records
  return {
    kind := .excessiveMaterialization, severity, node := n.id
    description := s!"{n.operation} materializes {records} records (threshold {threshold})"
    remediation := some materializationRemediation
    metric := some (Quantity.ofNat records, Quantity.ofNat threshold) }

/-- The issue of a storage engine row with a callback for every row. -/
def callback? (n : Node α) (info : Option QueryInfo) : Option (Issue α) := do
  let info ← info
  guard (n.engine.isStorage && info.hasPerRowCallback)
  let target := match n.objectName with
    | some table => s!" on '{table}'"
    | none => ""
  return {
    kind := .callbackDataId, severity := .warning, node := n.id
    description := "Storage engine query" ++ target ++ " uses CallbackDataID"
    remediation := some callbackRemediation }

/-- The issues of a node. -/
def issuesOf [Quantity α] (thresholds : IssueThresholds) (queries : NodeId → Option QueryInfo) (n : Node α) :
    List (Issue α) :=
  (materialization? thresholds n).toList ++ (callback? n (queries n.id)).toList

end Detection

variable {α : Type} [Quantity α]

/-- The issues that the rules find in a plan. -/
def Plan.findIssues (thresholds : IssueThresholds) (queries : NodeId → Option QueryInfo) (p : Plan α) : List (Issue α) :=
  p.nodes.flatMap (Detection.issuesOf thresholds queries)

/-- Records the issues that the rules find, and tells how many there were. -/
def Plan.detect (thresholds : IssueThresholds) (queries : NodeId → Option QueryInfo) (p : Plan α) : Plan α × Nat :=
  let found := p.findIssues thresholds queries
  (found.foldl Plan.addIssue p, found.length)

end DaxPlan
