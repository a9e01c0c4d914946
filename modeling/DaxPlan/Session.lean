import DaxPlan.CrossReference
import DaxPlan.Enrichment

/-!
# Sessions

A session keeps what is needed to make the plans of one traced query again: the plan texts, the query with its parameters, and
the storage engine events. Nothing derived is kept.
-/

namespace DaxPlan

/-- What is kept of a traced query. -/
structure Session (α : Type) where
  /-- The id that the trace reports for the query; it ties the plans to it. -/
  activityId : String
  requestId : Option String
  queryText : String
  /-- Names and values in the order in which the names were first given. -/
  parameters : List (String × String)
  startTime : Timestamp
  totalDuration : α
  physicalPlanText : String
  logicalPlanText : Option String
  events : List (Event α)
  deriving BEq, Repr

namespace Session

variable {α : Type}

/-- A session of a physical plan. -/
def ofPhysical (activityId queryText physicalPlanText : String) (startTime : Timestamp) (totalDuration : α) : Session α where
  activityId := activityId
  requestId := none
  queryText := queryText
  parameters := []
  startTime := startTime
  totalDuration := totalDuration
  physicalPlanText := physicalPlanText
  logicalPlanText := none
  events := []

def withRequestId (s : Session α) (requestId : String) : Session α := { s with requestId := some requestId }

def withLogicalPlan (s : Session α) (text : String) : Session α := { s with logicalPlanText := some text }

def withEvents (s : Session α) (events : List (Event α)) : Session α := { s with events }

/-- Gives a name a value: in its old place if the name is there, at the end otherwise. -/
def setParameter (name value : String) : List (String × String) → List (String × String)
  | [] => [(name, value)]
  | p :: rest => if p.1 == name then (name, value) :: rest else p :: setParameter name value rest

def withParameter (s : Session α) (name value : String) : Session α :=
  { s with parameters := setParameter name value s.parameters }

def correlationId (s : Session α) : String := s.activityId

variable [Quantity α]

/-- The physical plan, made again. -/
def physical (s : Session α) (enricher : Enricher) (resolver : Option Resolver) : Except (Error α) (Plan α) :=
  enricher.physicalText s.physicalPlanText s.events resolver s.correlationId s.totalDuration

/-- Both plans, made again; the logical plan, if there is one, is matched with the physical one. -/
def rederive (s : Session α) (enricher : Enricher) (resolver : Option Resolver) :
    Except (Error α) (Plan α × Option (Plan α)) := do
  let physical ← s.physical enricher resolver
  match s.logicalPlanText with
  | none => return (physical, none)
  | some text =>
    let logical ← enricher.logicalText text resolver s.correlationId
    return (physical, some (logical.crossReference physical).1)

end Session

end DaxPlan
