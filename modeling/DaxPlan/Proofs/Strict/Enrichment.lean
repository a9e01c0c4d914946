import DaxPlan.Proofs.Enrichment.EventOrder
import DaxPlan.Proofs.Strict.Outline

/-!
# Enrichment, strictly

While events are handed out they are known by their places in the list: a queue for each name holds the places of the events
that are left for it, and each node with the name takes the first. The events are then read at the places noted down, for the
totals and for the queries. Nodes are read at the ids in the list of nodes of the plan. All of these places are there: a queue
holds places of events and nothing else (`correlateFrom_eq`), and a plan lists the nodes of its tree.
-/

namespace DaxPlan.Strict

open DaxPlan.Tree Enrichment

variable {α : Type}

/-! ## Plans -/

/-- The plan of a tree, with the list of its nodes taken. -/
def plan [Quantity α] (kind : PlanKind) (correlationId : String) (t : Tree α) : Option (Plan α) :=
  (preOrder t).map (fun order => { Plan.parsed kind correlationId t with allNodes := order })

/-- The nodes in pre-order. -/
def allNodes (p : Plan α) : Option (List (Node α)) := p.allNodes.mapM p.tree.get?

/-- The plan of a tree is always made. -/
theorem plan_eq [Quantity α] (kind : PlanKind) (correlationId : String) {t : Tree α} (h : t.Spanning) :
    plan kind correlationId t = some (Plan.parsed kind correlationId t) := by
  rw [plan, preOrder_eq h]
  rfl

/-- The nodes that a plan lists are there. -/
theorem allNodes_eq {p : Plan α} (h : p.Walked) : allNodes p = some p.nodes :=
  mapM_get?_eq (fun _ hi => h.spanning.lt_size_of_mem (h.allNodes ▸ hi))

/-! ## Correlation -/

/-- The places of the events that are left for a name. -/
abbrev Queues := String → List Nat

/-- Puts the place of an event at the end of the queue for its name. -/
def enqueue (queues : Queues) (e : Event α × Nat) : Queues :=
  match eventKey? e.1 with
  | none => queues
  | some key => Function.update queues key (queues key ++ [e.2])

/-- Hands events out to the nodes with some ids, and notes down who takes which. -/
def correlateFrom (events : List (Event α)) : List NodeId → Queues → Tree α → Option (Tree α × List (NodeId × Nat))
  | [], _, t => some (t, [])
  | id :: ids, queues, t =>
    match (t.get? id).bind (fun n => nodeKey? n) with
    | none => correlateFrom events ids queues t
    | some key =>
      match queues key with
      | [] => correlateFrom events ids queues t
      | place :: rest => do
        let e ← events[place]?
        let (t, noted) ← correlateFrom events ids (Function.update queues key rest) (t.modify id (applyEvent e))
        return (t, (id, place) :: noted)

/-- Gives events to the nodes of a plan, and notes down the places they were taken from. -/
def correlate (p : Plan α) (events : List (Event α)) : Option (Plan α × List (NodeId × Nat)) :=
  (correlateFrom events p.allNodes (events.zipIdx.foldl enqueue (fun _ => [])) p.tree).map
    (fun result => (p.mapTree (fun _ => result.1), result.2))

/-- The events that are left for a name, with their places. -/
def waiting (key : String) (left : List (Event α × Nat)) : List (Event α × Nat) :=
  left.filter (fun e => eventKey? e.1 == some key)

/-- What is noted down leads to the events taken. -/
def Reads (events : List (Event α)) (noted : List (NodeId × Nat)) (taken : List (NodeId × Event α)) : Prop :=
  noted.map (fun a => (a.1, events[a.2]?)) = taken.map (fun a => (a.1, some a.2))

/-- The queues hold the places of the events that are left. -/
structure Queued (events : List (Event α)) (left : List (Event α × Nat)) (queues : Queues) : Prop where
  placed : ∀ e ∈ left, events[e.2]? = some e.1
  queue : ∀ key, queues key = (waiting key left).map Prod.snd

variable {events : List (Event α)} {left above below : List (Event α × Nat)} {queues : Queues} {key : String} {t : Tree α}

/-- The first event waits for its own name. -/
theorem waiting_self {e : Event α × Nat} (h : eventKey? e.1 = some key) (left : List (Event α × Nat)) :
    waiting key (e :: left) = e :: waiting key left := by
  simp [waiting, h]

/-- An event waits for no other name. -/
theorem waiting_other {e : Event α × Nat} (h : eventKey? e.1 ≠ some key) (left : List (Event α × Nat)) :
    waiting key (e :: left) = waiting key left := by
  simp [waiting, h]

/-- The events that wait are those of both lists. -/
theorem waiting_append (key : String) (left left' : List (Event α × Nat)) :
    waiting key (left ++ left') = waiting key left ++ waiting key left' :=
  List.filter_append left left'

/-- The places of the events that wait for a name come to its queue in their order. -/
theorem foldl_enqueue (left : List (Event α × Nat)) (queues : Queues) (key : String) :
    left.foldl enqueue queues key = queues key ++ (waiting key left).map Prod.snd := by
  induction left generalizing queues with
  | nil => exact (List.append_nil _).symm
  | cons e left ih =>
    rw [List.foldl_cons, ih, enqueue]
    cases he : eventKey? e.1 with
    | none => rw [waiting_other (by rw [he]; exact nofun)]
    | some name =>
      by_cases hname : name = key
      · subst hname
        rw [waiting_self he]
        simp
      · rw [waiting_other (by rw [he]; exact fun h => hname (Option.some.inj h))]
        simp [Function.update_of_ne (Ne.symm hname)]

/-- At first all events are left, and the queues hold their places. -/
theorem queued_zipIdx (events : List (Event α)) : Queued events events.zipIdx (events.zipIdx.foldl enqueue (fun _ => [])) where
  placed _ he := List.mem_zipIdx_iff_getElem?.mp he
  queue key := by rw [foldl_enqueue, List.nil_append]

/-- The first event for a name, with its place, or there is none. -/
theorem takeEvent?_placed (key : String) (left : List (Event α × Nat)) :
    (waiting key left = [] ∧ takeEvent? key (left.map Prod.fst) = none) ∨
    ∃ above e below, left = above ++ e :: below ∧ waiting key above = [] ∧
      eventKey? e.1 = some key ∧ takeEvent? key (left.map Prod.fst) = some (e.1, (above ++ below).map Prod.fst) := by
  induction left with
  | nil => exact Or.inl ⟨rfl, rfl⟩
  | cons e left ih =>
    rw [List.map_cons, takeEvent?]
    by_cases he : eventKey? e.1 = some key
    · exact Or.inr ⟨[], e, left, rfl, rfl, he, if_pos (beq_iff_eq.mpr he)⟩
    · rw [if_neg (fun h => he (beq_iff_eq.mp h))]
      rcases ih with ⟨hnone, htake⟩ | ⟨above, e', below, rfl, habove, he', htake⟩
      · exact Or.inl ⟨(waiting_other he left).trans hnone, by rw [htake]; rfl⟩
      · refine Or.inr ⟨e :: above, e', below, rfl, (waiting_other he above).trans habove, he', ?_⟩
        rw [htake]
        rfl

/-- After an event is taken the queues hold the places of the others. -/
theorem Queued.take {e : Event α × Nat} (h : Queued events (above ++ e :: below) queues) (he : eventKey? e.1 = some key)
    (habove : waiting key above = []) :
    ∃ rest, queues key = e.2 :: rest ∧ Queued events (above ++ below) (Function.update queues key rest) := by
  refine ⟨(waiting key below).map Prod.snd, ?_, ?_, fun name => ?_⟩
  · rw [h.queue, waiting_append, habove, waiting_self he]
    rfl
  · intro x hx
    refine h.placed x ?_
    rcases List.mem_append.mp hx with hx | hx
    · exact List.mem_append_left _ hx
    · exact List.mem_append_right _ (List.mem_cons_of_mem e hx)
  · by_cases hname : name = key
    · subst hname
      rw [Function.update_self, waiting_append, habove, List.nil_append]
    · have hother : eventKey? e.1 ≠ some name := by
        rw [he]
        exact fun heq => hname (Option.some.inj heq).symm
      rw [Function.update_of_ne hname, h.queue, waiting_append, waiting_append, waiting_other hother]

/-- Handing out by places is handing out events, as long as the queues hold places of events. -/
theorem correlateFrom_eq (ids : List NodeId) (ht : ∀ i n, t.get? i = some n → n.id = i) (hq : Queued events left queues) :
    ∃ noted, correlateFrom events ids queues t =
        some (applyEvents t (Enrichment.correlate (t.nodesAt ids) (left.map Prod.fst)), noted) ∧
      Reads events noted (Enrichment.correlate (t.nodesAt ids) (left.map Prod.fst)) := by
  induction ids generalizing left queues t with
  | nil => exact ⟨[], rfl, rfl⟩
  | cons id ids ih =>
    cases hn : t.get? id with
    | none =>
      have hskip : t.nodesAt (id :: ids) = t.nodesAt ids := List.filterMap_cons_none hn
      rw [correlateFrom, hn, hskip]
      exact ih ht hq
    | some n =>
      rw [correlateFrom, hn, nodesAt_cons hn, Enrichment.correlate, Option.bind_some]
      cases hkey : nodeKey? n with
      | none => exact ih ht hq
      | some key =>
        rw [Option.bind_some]
        rcases takeEvent?_placed key left with ⟨hnone, htake⟩ | ⟨above, e, below, rfl, habove, he, htake⟩
        · have hempty : queues key = [] := by rw [hq.queue, hnone]; rfl
          dsimp only
          rw [hempty, htake]
          exact ih ht hq
        · obtain ⟨rest, hrest, hq'⟩ := hq.take he habove
          -- An applied event does not change the name a later node waits for.
          have hsame : Enrichment.correlate ((t.modify id (applyEvent e.1)).nodesAt ids) ((above ++ below).map Prod.fst) =
              Enrichment.correlate (t.nodesAt ids) ((above ++ below).map Prod.fst) :=
            correlate_congr (nodesAt_congr (Agrees.modify t id (applyEvent e.1) (fun _ => rfl)) ids) _
          obtain ⟨noted, hloop, hreads⟩ := ih (ids_modify ht id (applyEvent e.1) (fun _ => rfl)) hq'
          rw [hsame] at hloop hreads
          have hplaced := hq.placed e (List.mem_append_right above List.mem_cons_self)
          refine ⟨(id, e.2) :: noted, ?_, ?_⟩
          · dsimp only
            rw [hrest, htake]
            dsimp only
            rw [then_eq hplaced, then_eq hloop, ht id n hn]
            rfl
          · rw [htake]
            dsimp only
            rw [Reads, List.map_cons, List.map_cons, hplaced, ht id n hn, hreads]

/-- Correlating never fails, and what is noted down leads to the events taken. -/
theorem correlate_eq {p : Plan α} (h : p.Walked) (events : List (Event α)) :
    ∃ noted, correlate p events = some (p.mapTree (applyEvents · (Enrichment.correlate p.nodes events)), noted) ∧
      Reads events noted (Enrichment.correlate p.nodes events) := by
  obtain ⟨noted, hloop, hreads⟩ := correlateFrom_eq p.allNodes h.spanning.ids (queued_zipIdx events)
  rw [List.zipIdx_map_fst] at hloop hreads
  refine ⟨noted, ?_, hreads⟩
  rw [correlate, hloop]
  rfl

/-! ## Totals and queries -/

/-- The places of the events that nodes have taken, in the order of the nodes. -/
def placesByNode (noted : List (NodeId × Nat)) : List Nat := (noted.mergeSort (fun a b => a.1 ≤ b.1)).map Prod.snd

/-- Sets the sums and shares of a plan from the events that were noted down. -/
def applyTotals [Quantity α] (p : Plan α) (events : List (Event α)) (noted : List (NodeId × Nat)) (total : α) :
    Option (Plan α) := do
  let consumed ← (placesByNode noted).mapM (events[·]?)
  let counted := { p with
    storageEngineCpu := Quantity.sum (consumed.map Event.cpuTime)
    storageEngineNetParallel := Quantity.sum (consumed.map Event.netParallelDuration)
    storageEngineQueryCount := noted.length
    cacheHitCount := consumed.countP Event.isCacheHit }
  let timed := counted.setDurations total (Quantity.sum (consumed.map Event.duration))
  return if Quantity.lt Quantity.zero total then timed.mapTree (·.map (assignCost total)) else timed

/-- The first storage engine row among pending nodes and what lies below them, looked for in so many steps at most. -/
def firstStorage (t : Tree α) : Nat → List NodeId → Option (Option NodeId)
  | _, [] => some none
  | 0, _ :: _ => none
  | steps + 1, id :: pending => do
    let n ← t.get? id
    if n.engine.isStorage then return some id else firstStorage t steps (n.children ++ pending)

/-- The node that a query in the details of a node explains. -/
def explained (t : Tree α) (n : Node α) : Option (Option NodeId) :=
  if n.engine.isStorage then some (some n.id)
  else do
    let top ← t.get? n.id
    firstStorage t t.size top.children

/-- The query in the details of a node, with the node that it explains. -/
def embeddedQuery (t : Tree α) (n : Node α) : Option (Option (NodeId × String)) :=
  if Query.isEmbeddedIn n.details.toList then (explained t n).map (·.map (fun id => (id, n.details))) else some none

/-- The queries of nodes: those on their lines, and those of the events noted down. -/
def analyzeQueries (p : Plan α) (events : List (Event α)) (noted : List (NodeId × Nat)) :
    Option (NodeId → Option QueryInfo) := do
  let nodes ← allNodes p
  let embedded ← nodes.mapM (embeddedQuery p.tree)
  let taken ← noted.mapM (fun a => (events[a.2]?).map (fun e => (a.1, e)))
  return queryInfo? (embedded.filterMap id) taken

/-- Adds the issues of all nodes. -/
def detect [Quantity α] (thresholds : IssueThresholds) (queries : NodeId → Option QueryInfo) (p : Plan α) :
    Option (Plan α × Nat) := do
  let nodes ← allNodes p
  let found := nodes.flatMap (Detection.issuesOf thresholds queries)
  return (found.foldl Plan.addIssue p, found.length)

namespace Reads

variable {noted : List (NodeId × Nat)} {taken : List (NodeId × Event α)}

/-- There is a note for each event taken. -/
theorem length_eq (h : Reads events noted taken) : noted.length = taken.length := by
  have hlength := congrArg List.length h
  rwa [List.length_map, List.length_map] at hlength

/-- The events are read with the nodes that take them. -/
theorem mapM_eq (h : Reads events noted taken) :
    noted.mapM (fun a => (events[a.2]?).map (fun e => (a.1, e))) = some taken := by
  refine mapM_eq_of_map ?_
  have hpairs := congrArg (List.map (fun a : NodeId × Option (Event α) => a.2.map (fun e => (a.1, e)))) h
  rw [List.map_map, List.map_map] at hpairs
  exact hpairs

/-- The events are read in the order of the nodes. -/
theorem mapM_placesByNode_eq (h : Reads events noted taken) : (placesByNode noted).mapM (events[·]?) = some (byNode taken) := by
  refine mapM_eq_of_map ?_
  have hsort : ∀ {γ δ : Type} (f : γ → δ) (xs : List (NodeId × γ)),
      (xs.mergeSort (fun a b => a.1 ≤ b.1)).map (fun a => (a.1, f a.2)) =
        (xs.map (fun a => (a.1, f a.2))).mergeSort (fun a b => a.1 ≤ b.1) :=
    fun f xs => List.map_mergeSort (fun _ _ _ _ => rfl)
  calc (placesByNode noted).map (events[·]?)
    _ = ((noted.mergeSort (fun a b => a.1 ≤ b.1)).map (fun a => (a.1, events[a.2]?))).map Prod.snd := by
      rw [placesByNode, List.map_map, List.map_map]
      rfl
    _ = ((taken.mergeSort (fun a b => a.1 ≤ b.1)).map (fun a => (a.1, some a.2))).map Prod.snd := by
      rw [hsort (events[·]?), hsort some, h]
    _ = (byNode taken).map some := by
      rw [byNode, List.map_map, List.map_map]
      rfl

/-- The events noted down are there when they are added up. -/
theorem applyTotals_eq [Quantity α] (h : Reads events noted taken) (p : Plan α) (total : α) :
    applyTotals p events noted total = some (Enrichment.applyTotals p taken total) := by
  rw [applyTotals, then_eq h.mapM_placesByNode_eq, Enrichment.applyTotals, h.length_eq]
  rfl

end Reads

/-- The search for a storage node comes to the first one of a walk, if the steps suffice. -/
theorem firstStorage_eq {s v : List NodeId} (h : t.Visits Node.children s v) {steps : Nat} (hsteps : v.length ≤ steps) :
    firstStorage t steps s = some (v.find? (fun id => (t.get? id).any (·.engine.isStorage))) := by
  induction h generalizing steps with
  | done => cases steps <;> rfl
  | @visit id n pending visited hn _ ih =>
    cases steps with
    | zero => cases hsteps
    | succ steps =>
      rw [firstStorage, then_eq hn, List.find?_cons, hn, Option.any_some]
      cases hstorage : n.engine.isStorage with
      | true => rfl
      | false => exact ih (Nat.le_of_succ_le_succ hsteps)

/-- Looking for the node that a query explains never fails. -/
theorem explained_eq (h : t.Spanning) {n : Node α} (hn : t.get? n.id = some n) : explained t n = some (explained? t n) := by
  obtain ⟨hvisits, hblock⟩ := h.subtree_spec (lt_size_iff.mpr ⟨n, hn⟩)
  obtain ⟨n', below, hn', hsubtree, hbelow⟩ := Visits.singleton_iff.mp hvisits
  obtain rfl : n = n' := Option.some.inj (hn.symm.trans hn')
  have hlength := hblock.length_le
  rw [h.length_preOrder, hsubtree, List.length_cons] at hlength
  unfold explained explained?
  split
  · rfl
  · rw [then_eq hn, firstStorage_eq hbelow (Nat.le_of_succ_le hlength), descendants, hsubtree, List.tail_cons]

/-- Queries are read off the nodes and events that are there. -/
theorem analyzeQueries_eq {p : Plan α} (h : p.Walked) {noted : List (NodeId × Nat)} {taken : List (NodeId × Event α)}
    (hreads : Reads events noted taken) :
    analyzeQueries p events noted = some (queryInfo? (embeddedQueries p) taken) := by
  have hembedded : p.nodes.mapM (embeddedQuery p.tree) = some (p.nodes.map (fun n =>
      if Query.isEmbeddedIn n.details.toList then (explained? p.tree n).map (fun id => (id, n.details)) else none)) := by
    refine mapM_eq (fun n hn => ?_)
    unfold embeddedQuery
    split
    · rw [explained_eq h.spanning (h.get?_id hn), Option.map_some]
    · rfl
  rw [analyzeQueries, then_eq (allNodes_eq h), then_eq hembedded, then_eq hreads.mapM_eq, List.filterMap_map]
  rfl

/-- Detecting issues never fails. -/
theorem detect_eq [Quantity α] (thresholds : IssueThresholds) (queries : NodeId → Option QueryInfo) {p : Plan α}
    (h : p.Walked) : detect thresholds queries p = some (p.detect thresholds queries) := by
  rw [detect, then_eq (allNodes_eq h)]
  rfl

/-! ## The passes -/

variable [Quantity α]

/-- The physical plan of rows and events; the outer `none` stands for an access out of range. -/
def physical (enricher : Enricher) (rows : List Row) (events : List (Event α)) (resolver : Option Resolver)
    (correlationId : String) (total : α) : Option (Except (Error α) (Plan α)) :=
  match validate events total with
  | .error e => some (.error e)
  | .ok () => do
    let t ← ofRows rows
    let named := t.map (fun n => assignObjectName (resolveName resolver (assignEngine n)))
    let parsed ← plan .physical correlationId named
    let (correlated, noted) ← correlate parsed events
    let timed ← applyTotals correlated events noted total
    let queries ← analyzeQueries timed events noted
    let detected ← detect enricher.thresholds queries timed
    return .ok (detected.1.advanceTo .enriched)

/-- The physical plan of a text. -/
def physicalText (enricher : Enricher) (text : String) (events : List (Event α)) (resolver : Option Resolver)
    (correlationId : String) (total : α) : Option (Except (Error α) (Plan α)) := do
  let rows ← rowsOfText enricher.parser text
  physical enricher rows events resolver correlationId total

/-- The logical plan of some rows. -/
def logical (rows : List Row) (resolver : Option Resolver) (correlationId : String) : Option (Plan α) := do
  let t ← ofRows rows
  let resolved := t.map (fun n => { resolveName resolver n with recordCount := none })
  let parsed ← plan .logical correlationId resolved
  return parsed.advanceTo .enriched

/-- The logical plan of a text. -/
def logicalText (enricher : Enricher) (text : String) (resolver : Option Resolver) (correlationId : String) :
    Option (Plan α) := do
  let rows ← rowsOfText enricher.parser text
  logical rows resolver correlationId

/-- A plan whose events are applied lists the nodes of its tree. -/
theorem walked_timedPlan (rows : List Row) (events : List (Event α)) (resolver : Option Resolver) (correlationId : String)
    (total : α) : (timedPlan rows events resolver correlationId total).Walked := by
  have hlinks : Agrees Node.links (namedTree rows resolver : Tree α) (timedPlan rows events resolver correlationId total).tree :=
    (applyEvents_agrees (fun _ _ => rfl) _ _).trans (timedPlan_agrees rows events resolver correlationId total (fun _ => rfl))
  refine (Plan.Walked.parsed (namedTree_wellFormed rows resolver).toSpanning .physical correlationId).of_agrees hlinks ?_
  rw [timedPlan, Enrichment.applyTotals_eq]
  rfl

/-- A physical plan is made, or refused for its times; nothing else happens. -/
theorem physical_eq (enricher : Enricher) (rows : List Row) (events : List (Event α)) (resolver : Option Resolver)
    (correlationId : String) (total : α) :
    physical enricher rows events resolver correlationId total =
      some (enricher.physical rows events resolver correlationId total) := by
  unfold physical
  cases hvalid : validate events total with
  | error e =>
    unfold Enricher.physical
    rw [hvalid]
    rfl
  | ok _ =>
    have hnamed := (namedTree_wellFormed (α := α) rows resolver).toSpanning
    have hwalked := walked_timedPlan rows events resolver correlationId total
    have hplan : plan .physical correlationId
        ((Tree.ofRows rows).map (fun n => assignObjectName (resolveName resolver (assignEngine n)))) =
          some (Plan.parsed .physical correlationId (namedTree rows resolver : Tree α)) := plan_eq _ _ hnamed
    obtain ⟨noted, hcorrelate, hreads⟩ : ∃ noted,
        correlate (Plan.parsed .physical correlationId (namedTree rows resolver)) events =
          some ((Plan.parsed .physical correlationId (namedTree rows resolver)).mapTree
            (applyEvents · (taken rows events resolver)), noted) ∧ Reads events noted (taken rows events resolver) :=
      correlate_eq ⟨hnamed, rfl⟩ events
    have htotals : applyTotals ((Plan.parsed .physical correlationId (namedTree rows resolver)).mapTree
        (applyEvents · (taken rows events resolver))) events noted total =
          some (timedPlan rows events resolver correlationId total) := hreads.applyTotals_eq _ total
    rw [Enrichment.physical_eq enricher rows events resolver correlationId total hvalid]
    dsimp only
    rw [then_eq (ofRows_eq rows), then_eq hplan, then_eq hcorrelate]
    dsimp only
    rw [then_eq htotals, then_eq (analyzeQueries_eq hwalked hreads), then_eq (detect_eq _ _ hwalked)]
    rfl

/-- The physical plan of a text is made, or refused for its times; nothing else happens. -/
theorem physicalText_eq (enricher : Enricher) (text : String) (events : List (Event α)) (resolver : Option Resolver)
    (correlationId : String) (total : α) :
    physicalText enricher text events resolver correlationId total =
      some (enricher.physicalText text events resolver correlationId total) := by
  rw [physicalText, then_eq (rowsOfText_eq enricher.parser text)]
  exact physical_eq enricher _ events resolver correlationId total

/-- Rows make a logical plan. -/
theorem logical_eq (rows : List Row) (resolver : Option Resolver) (correlationId : String) :
    ∃ p : Plan α, logical rows resolver correlationId = some p ∧ Enricher.logical rows resolver correlationId = .ok p := by
  refine ⟨_, ?_, Enrichment.logical_eq rows resolver correlationId⟩
  have hplan : plan .logical correlationId
      ((Tree.ofRows rows).map (fun n => { resolveName resolver n with recordCount := none })) =
        some (Plan.parsed .logical correlationId (resolvedTree rows resolver : Tree α)) :=
    plan_eq _ _ (resolvedTree_wellFormed rows resolver).toSpanning
  unfold logical
  rw [then_eq (ofRows_eq rows), then_eq hplan]
  rfl

/-- A logical plan is always made. -/
theorem logicalText_eq (enricher : Enricher) (text : String) (resolver : Option Resolver) (correlationId : String) :
    ∃ p : Plan α, logicalText enricher text resolver correlationId = some p ∧
      enricher.logicalText text resolver correlationId = .ok p := by
  rw [logicalText, then_eq (rowsOfText_eq enricher.parser text)]
  exact logical_eq _ resolver correlationId

end DaxPlan.Strict
