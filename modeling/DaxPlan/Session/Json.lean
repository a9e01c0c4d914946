import DaxPlan.Json.Reader
import DaxPlan.Json.Writer
import DaxPlan.Session

/-!
# Sessions as JSON

Events and sessions are written as JSON records and read back. Fields that may be absent are written as null; a field that has a
value where none is given may be left out. A time that is no finite number is written as null, and null is not read as one, so a
session with such a time is written and not read back.
-/

namespace DaxPlan

variable {α : Type} [Quantity α]

/-! ## Events -/

/-- A subclass by its word, or as an object with that word as its only field. -/
def EventSubclass.ofJson? : Json α → Option EventSubclass
  | .text name => EventSubclass.ofName? name
  | .object [(name, .null)] => EventSubclass.ofName? name
  | _ => none

/-- A point in time by its text. -/
def Timestamp.ofJson? (v : Json α) : Option Timestamp := v.text?.bind Timestamp.ofText?

namespace Event

/-- The fields of an event, in order. -/
def fieldNames : List String :=
  ["object_name", "query", "duration_ms", "cpu_time_ms", "subclass", "net_parallel_duration_ms", "start_time", "end_time",
    "is_direct_query", "estimated_rows", "estimated_kbytes"]

/-- An event as a record. -/
def toJson (e : Event α) : Json α :=
  .object [
    ("object_name", .ofOption .text e.objectName),
    ("query", .text e.query),
    ("duration_ms", .ofQuantity e.duration),
    ("cpu_time_ms", .ofQuantity e.cpuTime),
    ("subclass", .text e.subclass.name),
    ("net_parallel_duration_ms", .ofQuantity e.netParallelDuration),
    ("start_time", .text e.startTime.text),
    ("end_time", .text e.endTime.text),
    ("is_direct_query", .bool e.isDirectQuery),
    ("estimated_rows", .ofOption .ofNat e.estimatedRows),
    ("estimated_kbytes", .ofOption .ofNat e.estimatedKbytes)]

/-- Reads an event. -/
def ofJson? (v : Json α) : Option (Event α) := do
  let r ← v.record? fieldNames
  let objectName ← r.orElse? "object_name" none (Json.optional? Json.text?)
  let query ← r.required? "query" Json.text?
  let duration ← r.required? "duration_ms" Json.quantity?
  let cpuTime ← r.required? "cpu_time_ms" Json.quantity?
  let subclass ← r.orElse? "subclass" .vertipaqScan EventSubclass.ofJson?
  let netParallelDuration ← r.orElse? "net_parallel_duration_ms" Quantity.zero Json.quantity?
  let startTime ← r.required? "start_time" Timestamp.ofJson?
  let endTime ← r.required? "end_time" Timestamp.ofJson?
  let isDirectQuery ← r.orElse? "is_direct_query" false Json.bool?
  let estimatedRows ← r.orElse? "estimated_rows" none (Json.optional? Json.count?)
  let estimatedKbytes ← r.orElse? "estimated_kbytes" none (Json.optional? Json.count?)
  return {
    objectName, query, duration, cpuTime, subclass, netParallelDuration, startTime, endTime, isDirectQuery, estimatedRows,
    estimatedKbytes }

/-- Reads a list of events. -/
def listOfJson? (v : Json α) : Option (List (Event α)) := v.items?.bind (List.mapM ofJson?)

/-- Reads an event from text. -/
def ofText (text : String) : Except (Error Float) (Event Float) :=
  match (Json.ofText? text).bind ofJson? with
  | some e => .ok e
  | none => .error .serialization

/-- Reads a list of events from text. -/
def listOfText (text : String) : Except (Error Float) (List (Event Float)) :=
  match (Json.ofText? text).bind listOfJson? with
  | some events => .ok events
  | none => .error .serialization

end Event

/-! ## Sessions -/

namespace Session

/-- The fields of a session, in order. -/
def fieldNames : List String :=
  ["activity_id", "request_id", "query_text", "parameters", "start_time", "total_duration_ms", "physical_plan_text",
    "logical_plan_text", "events"]

/-- A session as a record. -/
def toJson (s : Session α) : Json α :=
  .object [
    ("activity_id", .text s.activityId),
    ("request_id", .ofOption .text s.requestId),
    ("query_text", .text s.queryText),
    ("parameters", .object (s.parameters.map (fun p => (p.1, .text p.2)))),
    ("start_time", .text s.startTime.text),
    ("total_duration_ms", .ofQuantity s.totalDuration),
    ("physical_plan_text", .text s.physicalPlanText),
    ("logical_plan_text", .ofOption .text s.logicalPlanText),
    ("events", .array (s.events.map Event.toJson))]

/-- Reads parameters; of a name given twice the last value counts, in the first place. -/
def parametersOfJson? (v : Json α) : Option (List (String × String)) := do
  let fields ← v.fields?
  fields.foldlM (fun parameters f => f.2.text?.map (fun value => setParameter f.1 value parameters)) []

/-- Reads a session. -/
def ofJson? (v : Json α) : Option (Session α) := do
  let r ← v.record? fieldNames
  let activityId ← r.required? "activity_id" Json.text?
  let requestId ← r.orElse? "request_id" none (Json.optional? Json.text?)
  let queryText ← r.required? "query_text" Json.text?
  let parameters ← r.orElse? "parameters" [] parametersOfJson?
  let startTime ← r.required? "start_time" Timestamp.ofJson?
  let totalDuration ← r.required? "total_duration_ms" Json.quantity?
  let physicalPlanText ← r.required? "physical_plan_text" Json.text?
  let logicalPlanText ← r.orElse? "logical_plan_text" none (Json.optional? Json.text?)
  let events ← r.orElse? "events" [] Event.listOfJson?
  return {
    activityId, requestId, queryText, parameters, startTime, totalDuration, physicalPlanText, logicalPlanText, events }

/-- The text a session is saved as. -/
def toText (s : Session Float) : String := s.toJson.toText

/-- Reads a session from text. -/
def ofText (text : String) : Except (Error Float) (Session Float) :=
  match (Json.ofText? text).bind ofJson? with
  | some s => .ok s
  | none => .error .serialization

end Session

end DaxPlan
