import DaxPlan.Session
import DaxPlan.Text.Escaped
import DaxPlan.TraceBuffer

/-!
# The enrichment service

Requests may finish in another order than they began in. A request gets its sequence number when it begins; its plan is published
when it finishes, unless that of a request with a greater number has been published before. So the published plan is always the
newest that is finished, and a request that fails changes nothing.
-/

namespace DaxPlan

/-- A request for the physical plan of a text. -/
structure Request (α : Type) where
  planText : String
  events : List (Event α)
  correlationId : String
  totalDuration : α
  resolver : Option Resolver
  /-- The identifiers on which the resolver gives up. -/
  givesUpOn : String → Bool

namespace Request

variable {α : Type}

def ofText (planText correlationId : String) (totalDuration : α) : Request α :=
  ⟨planText, [], correlationId, totalDuration, none, fun _ => false⟩

/-- A request for the physical plan of a session. -/
def ofSession (s : Session α) : Request α :=
  { ofText s.physicalPlanText s.correlationId s.totalDuration with events := s.events }

def withEvents (r : Request α) (events : List (Event α)) : Request α := { r with events }

/-- Takes the events buffered so far. -/
def withBufferedEvents (r : Request α) (buffer : TraceBuffer α) : Request α := r.withEvents buffer.snapshot

/-- Sets the resolver, with the identifiers on which it gives up. -/
def withResolver (r : Request α) (resolver : Resolver) (givesUpOn : String → Bool) : Request α :=
  { r with resolver := some resolver, givesUpOn }

/-- The resolver is asked for an identifier on which it gives up. -/
def breaksDown (r : Request α) (rows : List Row) : Bool :=
  r.resolver.isSome && (Enrichment.lookups rows).any r.givesUpOn

/-- Makes the plan of a request. The total and the events are checked before the resolver is asked for anything. -/
def run [Quantity α] (r : Request α) (enricher : Enricher) : Except (Error α) (Plan α) := do
  let rows := Row.ofText enricher.parser r.planText
  Enrichment.validate r.events r.totalDuration
  if r.breaksDown rows then throw .taskFailed
  match enricher.physical rows r.events r.resolver r.correlationId r.totalDuration with
  | .error (.brokenLink _) => throw .taskFailed
  | result => result

/-- A duration in the description of a request. -/
def durationFormat : Number.ShortestFormat := ⟨some (-4, 16), true, "NaN", "inf"⟩

/-- A request in one line, for a log. -/
def describe (r : Request Float) : String :=
  "EnrichmentRequest \x7b plan_text: " ++ Text.quoteEscaped r.planText ++ ", events: " ++
    Number.digitText r.events.length ++ ", correlation_id: " ++ Text.quoteEscaped r.correlationId ++
    ", total_duration_ms: " ++ Number.shortestText durationFormat r.totalDuration ++ ", has_resolver: " ++
    (if r.resolver.isSome then "true" else "false") ++ " \x7d"

end Request

/-- What becomes of a finished request. -/
inductive Outcome (α : Type) where
  | published (plan : Plan α)
  /-- A later request finished first. -/
  | superseded

/-- A plan with the sequence number of its request. -/
structure Publication (α : Type) where
  sequence : Nat
  plan : Plan α

/-- The state of the service. -/
structure Service (α : Type) where
  enricher : Enricher
  /-- The number of requests that have begun. It is counted without bound: a counter of sixty-four bits is the same below two to
  the sixty-fourth requests. -/
  begun : Nat
  publication : Option (Publication α)

namespace Service

variable {α : Type}

def new (enricher : Enricher) : Service α := ⟨enricher, 0, none⟩

/-- The plan published last. -/
def latest (s : Service α) : Option (Plan α) := s.publication.map Publication.plan

/-- The sequence number of the plan published last; zero if there is none. -/
def latestSequence (s : Service α) : Nat := (s.publication.map Publication.sequence).getD 0

/-- Begins a request: it gets the next sequence number. -/
def start (s : Service α) : Service α × Nat := ({ s with begun := s.begun + 1 }, s.begun + 1)

/-- Publishes the plan of a request, unless that of a later one is published. -/
def publish (s : Service α) (sequence : Nat) (plan : Plan α) : Service α × Outcome α :=
  if sequence < s.latestSequence then (s, .superseded)
  else ({ s with publication := some ⟨sequence, plan⟩ }, .published plan)

/-- Finishes a request: makes its plan and publishes it. -/
def finish [Quantity α] (s : Service α) (sequence : Nat) (r : Request α) : Except (Error α) (Service α × Outcome α) :=
  (r.run s.enricher).map (s.publish sequence)

end Service

end DaxPlan
