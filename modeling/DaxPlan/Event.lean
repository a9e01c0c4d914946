import DaxPlan.Error
import DaxPlan.Timestamp

/-!
# Storage engine events

An event is a storage engine query observed while a plan ran. Nothing links it to a row of the plan but the name of the table
it reads. An event is valid when its times are finite and not negative and it does not end before it starts.
-/

namespace DaxPlan

/-- What kind of storage engine query an event reports. -/
inductive EventSubclass where
  | vertipaqScan | vertipaqScanInternal | vertipaqCacheExactMatch | batchVertipaqScan | directQuery | other
  deriving DecidableEq, Repr

namespace EventSubclass

def all : List EventSubclass :=
  [vertipaqScan, vertipaqScanInternal, vertipaqCacheExactMatch, batchVertipaqScan, directQuery, other]

/-- The word for a subclass in files and reports. -/
def name : EventSubclass → String
  | vertipaqScan => "vertipaq_scan"
  | vertipaqScanInternal => "vertipaq_scan_internal"
  | vertipaqCacheExactMatch => "vertipaq_cache_exact_match"
  | batchVertipaqScan => "batch_vertipaq_scan"
  | directQuery => "direct_query"
  | other => "other"

def ofName? (name : String) : Option EventSubclass := all.find? (·.name == name)

/-- The query was answered from the storage engine's cache. -/
def isCacheMatch (s : EventSubclass) : Bool := s == vertipaqCacheExactMatch

end EventSubclass

/-- A storage engine query observed while a plan ran; times are in milliseconds. -/
structure Event (α : Type) where
  objectName : Option String
  query : String
  duration : α
  cpuTime : α
  subclass : EventSubclass
  netParallelDuration : α
  startTime : Timestamp
  endTime : Timestamp
  isDirectQuery : Bool
  estimatedRows : Option Nat
  estimatedKbytes : Option Nat
  deriving BEq, Repr

namespace Event

variable {α : Type}

/-- An event of which the duration alone is known: the other times equal it, and it starts and ends at the start of 1970. -/
def ofDuration (objectName : Option String) (query : String) (duration : α) : Event α where
  objectName := objectName
  query := query
  duration := duration
  cpuTime := duration
  subclass := .vertipaqScan
  netParallelDuration := duration
  startTime := .epoch
  endTime := .epoch
  isDirectQuery := false
  estimatedRows := none
  estimatedKbytes := none

def withCpuTime (e : Event α) (cpuTime : α) : Event α := { e with cpuTime }

/-- Sets the subclass, and with it whether the event is a direct query. -/
def withSubclass (e : Event α) (subclass : EventSubclass) : Event α :=
  { e with subclass, isDirectQuery := subclass == .directQuery }

def withTimes (e : Event α) (startTime endTime : Timestamp) : Event α := { e with startTime, endTime }

def withEstimates (e : Event α) (rows kbytes : Nat) : Event α :=
  { e with estimatedRows := some rows, estimatedKbytes := some kbytes }

/-- The query was answered from the storage engine's cache. -/
def isCacheHit (e : Event α) : Bool := e.subclass.isCacheMatch

/-- The value of a time field. -/
def time (e : Event α) : TimeField → α
  | .duration => e.duration
  | .cpuTime => e.cpuTime
  | .netParallelDuration => e.netParallelDuration

/-- What is wrong with a time field, if anything. -/
def timeFlaw? [Quantity α] (e : Event α) (field : TimeField) : Option EventFlaw :=
  if !Quantity.isFinite (e.time field) then some (.notFinite field)
  else if Quantity.lt (e.time field) Quantity.zero then some (.negative field)
  else none

/-- The first thing wrong with an event, if anything. -/
def flaw? [Quantity α] (e : Event α) : Option EventFlaw :=
  match [TimeField.duration, .cpuTime, .netParallelDuration].findSome? e.timeFlaw? with
  | some flaw => some flaw
  | none => if e.endTime.before e.startTime then some .endsBeforeStart else none

/-- Checks an event; the index tells which event of a list it is. -/
def validate [Quantity α] (e : Event α) (index : Nat) : Except (Error α) Unit :=
  match e.flaw? with
  | some flaw => .error (.invalidTimingEvent index flaw)
  | none => .ok ()

end Event

end DaxPlan
