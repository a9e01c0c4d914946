import DaxPlan.Issue
import DaxPlan.Number.Quantity

/-!
# Errors

Each way an operation can fail is a constructor with its cause; `Error.message` is the one place that puts it into words.
-/

namespace DaxPlan

/-- The time fields of a storage engine event, in the order they are checked. -/
inductive TimeField where
  | duration | cpuTime | netParallelDuration
  deriving DecidableEq, Repr

def TimeField.name : TimeField → String
  | duration => "duration"
  | cpuTime => "cpu time"
  | netParallelDuration => "net parallel duration"

/-- What makes an event unusable. -/
inductive EventFlaw where
  | notFinite (field : TimeField)
  | negative (field : TimeField)
  | endsBeforeStart
  deriving DecidableEq, Repr

def EventFlaw.reason : EventFlaw → String
  | notFinite field => field.name ++ " is not a finite number"
  | negative field => field.name ++ " is negative"
  | endsBeforeStart => "end time precedes start time"

/-- Why a file could not be read. -/
inductive ReadFailure where
  | notFound | isDirectory | notDirectory | nameTooLong | other (reason : String)
  deriving DecidableEq, Repr

def ReadFailure.reason : ReadFailure → String
  | notFound => "No such file or directory (os error 2)"
  | isDirectory => "Is a directory (os error 21)"
  | notDirectory => "Not a directory (os error 20)"
  | nameTooLong => "File name too long (os error 36)"
  | other reason => reason

/-- The ways an operation on plans can fail. -/
inductive Error (α : Type) where
  | io (failure : ReadFailure)
  /-- A text is not the JSON of what was to be read. -/
  | serialization
  /-- A text is not a settings file. -/
  | settings
  | invalidTimingEvent (index : Nat) (flaw : EventFlaw)
  | invalidTotal (total : α)
  /-- The resolver gave up while a plan was being enriched. -/
  | taskFailed
  | unknownNode (id : NodeId)
  /-- A link leads to no node of the arena. -/
  | brokenLink (id : NodeId)
  deriving Repr

/-- The text of an error. -/
def Error.message {α : Type} [QuantityText α] : Error α → String
  | io failure => "IO error: " ++ failure.reason
  | serialization => "Serialization error"
  | settings => "Settings error"
  | invalidTimingEvent index flaw => s!"Invalid timing event #{index}: " ++ flaw.reason
  | invalidTotal total => "Enrichment failed: invalid total duration " ++ QuantityText.shortest total
  | taskFailed => "Enrichment failed: enrichment task failed"
  | unknownNode id => "Unknown node: " ++ nodeIdText id
  | brokenLink id => "Broken link: " ++ nodeIdText id

end DaxPlan
