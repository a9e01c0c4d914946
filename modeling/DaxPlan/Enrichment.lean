import DaxPlan.Detection
import DaxPlan.Event
import DaxPlan.Outline
import DaxPlan.Resolver

/-!
# Enrichment

Rows become a plan: each node gets its engine, names are resolved, storage engine events are handed out to the nodes that read
their tables, times are added up, and the queries behind the storage engine rows are scanned for issues.

An event does not say which row it belongs to. The nodes are visited in pre-order, and each takes the oldest event left over
for its table; table names are compared without regard to case.

The query that explains a storage engine row is the one in its own details; failing that, one in the details of a row above it
of another engine, of which it is the first storage engine row below; failing that, the query of its event.
-/

namespace DaxPlan

/-- What enrichment is configured by. -/
structure Enricher where
  parser : ParserConfig := {}
  thresholds : IssueThresholds := {}
  deriving Repr

def Enricher.ofSettings {α : Type} (s : Settings α) : Enricher := ⟨s.parser, s.issues⟩

namespace Enrichment

variable {α : Type}

/-! ## Names and engines -/

/-- The engine of a node is that of its operator; a node that stands for no row has none. -/
def assignEngine (n : Node α) : Node α := if n.isSynthetic then n else { n with engine := n.operator.engine }

/-- Resolves the line of a node. Without a resolver nothing is. -/
def resolveName (resolver : Option Resolver) (n : Node α) : Node α :=
  match resolver with
  | none => n
  | some resolver => { n with resolvedText := resolver.resolveText? n.lineText }

/-- A storage engine row reads the first table quoted in its line. -/
def assignObjectName (n : Node α) : Node α :=
  if n.engine.isStorage then
    { n with objectName := (Query.firstTable? n.displayText.toList).map String.ofList }
  else n

/-- The tree of a list of rows, with engines, display names and tables. -/
def namedTree [Quantity α] (rows : List Row) (resolver : Option Resolver) : Tree α :=
  (Tree.ofRows rows).map (fun n => assignObjectName (resolveName resolver (assignEngine n)))

/-- What a resolver is asked for while rows are enriched. -/
def lookups (rows : List Row) : List String :=
  rows.flatMap (fun row =>
    (Identifier.all (Node.joinLine row.operation row.details).toList).map (fun i => String.ofList i.name))

/-! ## Correlation -/

/-- The name that nodes and events are matched by. -/
def tableKey? (name : Option String) : Option String := name.map Text.lowerString

/-- The name by which a node takes events: that of its table, for a storage engine row that has one. -/
def nodeKey? (n : Node α) : Option String := if n.engine.isStorage then tableKey? n.objectName else none

/-- The name by which an event is taken. -/
def eventKey? (e : Event α) : Option String := tableKey? e.objectName

/-- Takes the first event with a key out of a list. -/
def takeEvent? (key : String) : List (Event α) → Option (Event α × List (Event α))
  | [] => none
  | e :: rest =>
    if eventKey? e == some key then some (e, rest)
    else (takeEvent? key rest).map (fun taken => (taken.1, e :: taken.2))

/-- The events that nodes take in turn, each with the node that takes it. -/
def correlate : List (Node α) → List (Event α) → List (NodeId × Event α)
  | [], _ => []
  | n :: nodes, events =>
    match (nodeKey? n).bind (fun key => takeEvent? key events) with
    | some (e, rest) => (n.id, e) :: correlate nodes rest
    | none => correlate nodes events

/-- Puts the times of an event on the node that took it. -/
def applyEvent (e : Event α) (n : Node α) : Node α :=
  { n with
    duration := some e.duration
    cpuTime := some e.cpuTime
    estimatedRows := e.estimatedRows
    estimatedKbytes := e.estimatedKbytes
    isCacheHit := e.isCacheHit }

/-- Puts the times of all events on the nodes that took them. -/
def applyEvents (t : Tree α) (taken : List (NodeId × Event α)) : Tree α :=
  taken.foldl (fun t pair => t.modify pair.1 (applyEvent pair.2)) t

/-! ## Totals -/

/-- The events taken, in the order of the nodes that took them. -/
def byNode (taken : List (NodeId × Event α)) : List (Event α) :=
  (taken.mergeSort (fun a b => a.1 ≤ b.1)).map Prod.snd

/-- The share of the total that a node takes. -/
def assignCost [Quantity α] (total : α) (n : Node α) : Node α :=
  { n with costPercent := n.duration.map (fun d => Plan.percentOf d total) }

/-- Adds up the times of the events taken. -/
def applyTotals [Quantity α] (p : Plan α) (taken : List (NodeId × Event α)) (total : α) : Plan α :=
  let events := byNode taken
  let counted := { p with
    storageEngineCpu := Quantity.sum (events.map Event.cpuTime)
    storageEngineNetParallel := Quantity.sum (events.map Event.netParallelDuration)
    storageEngineQueryCount := taken.length
    cacheHitCount := events.countP Event.isCacheHit }
  let timed := counted.setDurations total (Quantity.sum (events.map Event.duration))
  if Quantity.lt Quantity.zero total then timed.mapTree (·.map (assignCost total)) else timed

/-! ## Queries -/

/-- The node that a query in the details of a node explains: the node itself if it is a storage engine row, otherwise the first
storage engine row below it. -/
def explained? (t : Tree α) (n : Node α) : Option NodeId :=
  if n.engine.isStorage then some n.id
  else (t.descendants n.id).find? (fun id => (t.get? id).any (·.engine.isStorage))

/-- The queries embedded in details, each with the node it explains, in pre-order of the nodes they stand in. -/
def embeddedQueries (p : Plan α) : List (NodeId × String) :=
  p.nodes.filterMap (fun n =>
    if Query.isEmbeddedIn n.details.toList then (explained? p.tree n).map (fun id => (id, n.details)) else none)

/-- The query that explains a node. Of those embedded in the plan the last one counts: a row stands after the rows above it. -/
def queryOf? (embedded : List (NodeId × String)) (taken : List (NodeId × Event α)) (id : NodeId) : Option String :=
  match (embedded.filter (·.1 == id)).getLast? with
  | some entry => some entry.2
  | none => (taken.find? (·.1 == id)).map (·.2.query)

/-- What the scan of the query behind a node finds. -/
def queryInfo? (embedded : List (NodeId × String)) (taken : List (NodeId × Event α)) (id : NodeId) : Option QueryInfo :=
  (queryOf? embedded taken id).map QueryInfo.ofText

/-! ## Validation -/

/-- Checks the total, and then the events in order. -/
def validate [Quantity α] (events : List (Event α)) (total : α) : Except (Error α) Unit :=
  if !Quantity.isFinite total || Quantity.lt total Quantity.zero then .error (.invalidTotal total)
  else match events.zipIdx.findSome? (fun e => e.1.flaw?.map (fun flaw => (e.2, flaw))) with
    | some (index, flaw) => .error (.invalidTimingEvent index flaw)
    | none => .ok ()

end Enrichment

namespace Enricher

variable {α : Type} [Quantity α]

/-- The physical plan of rows and events. If the total or an event is invalid there is no plan. -/
def physical (enricher : Enricher) (rows : List Row) (events : List (Event α)) (resolver : Option Resolver)
    (correlationId : String) (total : α) : Except (Error α) (Plan α) := do
  Enrichment.validate events total
  let plan ← Plan.ofTree .physical correlationId (Enrichment.namedTree rows resolver)
  let taken := Enrichment.correlate plan.nodes events
  let correlated := plan.mapTree (Enrichment.applyEvents · taken)
  let timed := Enrichment.applyTotals correlated taken total
  let detected := (timed.detect enricher.thresholds (Enrichment.queryInfo? (Enrichment.embeddedQueries timed) taken)).1
  return detected.advanceTo .enriched

/-- The physical plan of a plan text and events. -/
def physicalText (enricher : Enricher) (text : String) (events : List (Event α)) (resolver : Option Resolver)
    (correlationId : String) (total : α) : Except (Error α) (Plan α) :=
  enricher.physical (Row.ofText enricher.parser text) events resolver correlationId total

/-- The logical plan of rows. Its nodes have neither engines nor record counts of their own. -/
def logical (rows : List Row) (resolver : Option Resolver) (correlationId : String) : Except (Error α) (Plan α) := do
  let tree := (Tree.ofRows rows).map (fun n => { Enrichment.resolveName resolver n with recordCount := none })
  let plan ← Plan.ofTree .logical correlationId tree
  return plan.advanceTo .enriched

/-- The logical plan of a plan text. -/
def logicalText (enricher : Enricher) (text : String) (resolver : Option Resolver) (correlationId : String) :
    Except (Error α) (Plan α) :=
  logical (Row.ofText enricher.parser text) resolver correlationId

end Enricher

end DaxPlan
