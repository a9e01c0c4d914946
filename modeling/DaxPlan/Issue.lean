/-!
# Issues

An issue is a diagnostic reported against a node of a plan. Issues belong to the plan; a node refers to its own by their places
in the plan's list.
-/

namespace DaxPlan

/-- The place of a node in the arena of its tree. -/
abbrev NodeId := Nat

/-- A node id as reports write it. -/
def nodeIdText (id : NodeId) : String := s!"#{id}"

/-- How serious an issue is. -/
inductive Severity where
  | info | warning | error
  deriving DecidableEq, Repr

namespace Severity

/-- The word for a severity in reports. -/
def name : Severity → String
  | info => "info"
  | warning => "warning"
  | error => "error"

def isError (s : Severity) : Bool := s == error

def isWarningOrAbove (s : Severity) : Bool := s == error || s == warning

/-- Errors sort first. -/
def rank : Severity → Nat
  | error => 0
  | warning => 1
  | info => 2

end Severity

/-- What kind of problem an issue is about. -/
inductive IssueKind where
  | excessiveMaterialization
  | callbackDataId
  deriving DecidableEq, Repr

namespace IssueKind

/-- The word for a kind in reports. -/
def name : IssueKind → String
  | excessiveMaterialization => "excessive_materialization"
  | callbackDataId => "callback_data_id"

def description : IssueKind → String
  | excessiveMaterialization => "Excessive materialization"
  | callbackDataId => "CallbackDataID in storage engine query"

end IssueKind

/-- A diagnostic against one node. The metric is the measured value with the threshold it crossed. -/
structure Issue (α : Type) where
  kind : IssueKind
  severity : Severity
  node : NodeId
  description : String
  remediation : Option String := none
  metric : Option (α × α) := none
  deriving Repr

end DaxPlan
