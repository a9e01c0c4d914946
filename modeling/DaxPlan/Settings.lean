import DaxPlan.Number.Quantity

/-!
# Settings

What can be configured about reading plans, raising issues and laying plans out, with the values that hold where nothing is
said.
-/

namespace DaxPlan

/-- How plan text is read. -/
structure ParserConfig where
  /-- Columns of leading blanks per indentation level; a tab is a whole level. -/
  indentWidth : Nat := 4
  /-- The keys of `key=value` tokens whose value is a record count. -/
  recordCountKeys : List String := ["#Records", "Records", "#Rows", "RowCount"]
  deriving Repr

namespace ParserConfig

/-- Sets the indentation width, of at least one column. -/
def withIndentWidth (c : ParserConfig) (width : Nat) : ParserConfig := { c with indentWidth := max width 1 }

def withRecordCountKeys (c : ParserConfig) (keys : List String) : ParserConfig := { c with recordCountKeys := keys }

end ParserConfig

/-- The record counts of a spool above which an issue is raised. -/
structure IssueThresholds where
  warningRecords : Nat := 100000
  errorRecords : Nat := 1000000
  deriving Repr

namespace IssueThresholds

def withWarning (t : IssueThresholds) (records : Nat) : IssueThresholds := { t with warningRecords := records }

def withError (t : IssueThresholds) (records : Nat) : IssueThresholds := { t with errorRecords := records }

end IssueThresholds

/-- Sizes, gaps and limits of a layout. -/
structure LayoutConfig (α : Type) where
  /-- The width of a node that has none of its own. -/
  nodeWidth : α
  nodeHeight : α
  horizontalSpacing : α
  verticalSpacing : α
  /-- The most rounds of overlap resolution; there is always one. -/
  maxOverlapIterations : Nat
  /-- An overlap up to this is left alone. -/
  overlapTolerance : α
  /-- The number of visible leaves that auto-collapse aims for. -/
  autoCollapseTarget : Nat
  /-- The most nodes that one auto-collapse folds. -/
  autoCollapseMaxIterations : Nat
  deriving Repr

namespace LayoutConfig

variable {α : Type} [Quantity α]

/-- The layout where nothing is configured. -/
def standard : LayoutConfig α where
  nodeWidth := Quantity.ofNat 180
  nodeHeight := Quantity.ofNat 60
  horizontalSpacing := Quantity.ofNat 24
  verticalSpacing := Quantity.ofNat 48
  maxOverlapIterations := 10
  overlapTolerance := Quantity.half (Quantity.ofNat 1)
  autoCollapseTarget := 8
  autoCollapseMaxIterations := 100

def withNodeSize (c : LayoutConfig α) (width height : α) : LayoutConfig α :=
  { c with nodeWidth := width, nodeHeight := height }

def withSpacing (c : LayoutConfig α) (horizontal vertical : α) : LayoutConfig α :=
  { c with horizontalSpacing := horizontal, verticalSpacing := vertical }

def withMaxOverlapIterations (c : LayoutConfig α) (iterations : Nat) : LayoutConfig α :=
  { c with maxOverlapIterations := iterations }

def withAutoCollapseTarget (c : LayoutConfig α) (target : Nat) : LayoutConfig α := { c with autoCollapseTarget := target }

def withAutoCollapseMaxIterations (c : LayoutConfig α) (iterations : Nat) : LayoutConfig α :=
  { c with autoCollapseMaxIterations := iterations }

/-- The distance from one level to the next. -/
def levelHeight (c : LayoutConfig α) : α := c.nodeHeight + c.verticalSpacing

end LayoutConfig

/-- All that can be configured. -/
structure Settings (α : Type) where
  parser : ParserConfig
  issues : IssueThresholds
  layout : LayoutConfig α
  deriving Repr

/-- The settings where nothing is configured. -/
def Settings.standard {α : Type} [Quantity α] : Settings α := ⟨{}, {}, LayoutConfig.standard⟩

end DaxPlan
