import DaxPlan.Enrichment
import DaxPlan.Proofs.Outline.TextualOrder

/-!
# What the passes of enrichment write

The tree of rows is given engines and names, then the times of events, then shares of the cost and issues; each pass writes its
own fields of a node and nothing else. So the plan that comes of rows and events is known but for shares and issues once the
events are handed out (`physical_spec`), and a logical plan is the tree of its rows but for the display names (`logical_spec`).
Rows always make a tree whose links lead to nodes, so nothing but an invalid total or event is in the way of a plan.
-/

namespace DaxPlan

namespace Node

variable {α : Type}

/-- A node but for its engine and its names. -/
def unnamed (n : Node α) : Node α := { n with engine := .unknown, resolvedText := none, objectName := none }

/-- A node but for the times of an event. -/
def untimed (n : Node α) : Node α :=
  { n with duration := none, cpuTime := none, estimatedRows := none, estimatedKbytes := none, isCacheHit := false }

/-- A node that has neither taken an event nor been resolved. -/
def untouched (n : Node α) : Node α := { n.untimed with resolvedText := none }

/-- A node but for its share of the cost and its issues. -/
def uncharged (n : Node α) : Node α := { n with costPercent := none, issues := [] }

/-- A node but for its issues. -/
def undiagnosed (n : Node α) : Node α := { n with issues := [] }

/-- A node but for its display text and its record count. -/
def uncounted (n : Node α) : Node α := { n with resolvedText := none, recordCount := none }

end Node

namespace Tree

variable {α : Type} {t : Tree α} {i c p : NodeId} {n : Node α}

/-- In a tree all links lead to nodes. -/
theorem checkLinks_eq_ok (h : t.Spanning) (hl : t.Linked) : t.checkLinks = .ok () := by
  have hnone : (t.root.toList ++ t.nodes.toList.flatMap (fun n => n.children ++ n.parent.toList)).find?
      (fun id => !t.contains id) = none := by
    rw [List.find?_eq_none]
    intro id hid
    have hlt : id < t.size := by
      rcases List.mem_append.mp hid with hroot | hlink
      · exact h.root_lt_size (Option.mem_toList.mp hroot)
      · obtain ⟨n, hn, hlink⟩ := List.mem_flatMap.mp hlink
        obtain ⟨i, hi, rfl⟩ := Array.mem_iff_getElem.mp (Array.mem_toList_iff.mp hn)
        have hget : t.get? i = some t.nodes[i] := Array.getElem?_eq_getElem hi
        rcases List.mem_append.mp hlink with hchild | hparent
        · exact h.child_lt_size hget hchild
        · obtain ⟨m, hm, -⟩ := (hl i _ id hget).mp (Option.mem_toList.mp hparent)
          exact lt_size_iff.mpr ⟨m, hm⟩
    simp [contains_iff.mpr hlt]
  unfold checkLinks
  dsimp only
  rw [hnone]

end Tree

namespace Plan

variable {α : Type} [Quantity α]

theorem ofTree_eq_ok (kind : PlanKind) (correlationId : String) {t : Tree α} (h : t.Spanning) (hl : t.Linked) :
    ofTree kind correlationId t = .ok (parsed kind correlationId t) := by
  rw [ofTree, Tree.checkLinks_eq_ok h hl]
  rfl

theorem addIssue_agrees {α : Type} (p : Plan α) (issue : Issue α) :
    Tree.Agrees Node.undiagnosed p.tree (p.addIssue issue).tree :=
  Tree.Agrees.modify p.tree issue.node _ (fun _ => rfl)

/-- Issues are recorded on the plan, and on nodes. -/
theorem foldl_addIssue {α : Type} (found : List (Issue α)) (p : Plan α) :
    ∃ t, Tree.Agrees Node.undiagnosed p.tree t ∧
      found.foldl addIssue p = { p with tree := t, issues := p.issues ++ found } := by
  induction found generalizing p with
  | nil => exact ⟨p.tree, Tree.Agrees.refl _ _, by rw [List.append_nil]; rfl⟩
  | cons issue found ih =>
    obtain ⟨t, hagrees, heq⟩ := ih (p.addIssue issue)
    refine ⟨t, (p.addIssue_agrees issue).trans hagrees, ?_⟩
    rw [List.foldl_cons, heq, List.append_cons]
    rfl

theorem detect_spec (thresholds : IssueThresholds) (queries : NodeId → Option QueryInfo) (p : Plan α) :
    ∃ t, Tree.Agrees Node.undiagnosed p.tree t ∧
      (p.detect thresholds queries).1 = { p with tree := t, issues := p.issues ++ p.findIssues thresholds queries } :=
  foldl_addIssue _ p

theorem advanceTo_spec {α : Type} (p : Plan α) (state : PlanState) :
    p.advanceTo state = { p with state := (p.advanceTo state).state } := by
  unfold advanceTo advance
  split <;> rfl

/-- The list of nodes of a plan is the walk of its tree, on which each node is met once. -/
structure Walked {α : Type} (p : Plan α) : Prop where
  spanning : p.tree.Spanning
  allNodes : p.allNodes = p.tree.preOrder

namespace Walked

variable {α : Type} {p p' : Plan α} {n : Node α}

theorem of_agrees (h : p.Walked) (ha : Tree.Agrees Node.links p.tree p'.tree) (hall : p'.allNodes = p.allNodes) : p'.Walked :=
  ⟨h.spanning.of_agrees ha,
    (hall.trans h.allNodes).trans (Tree.preOrder_congr (ha.view (fun links => links.2.2) (fun _ => rfl))).symm⟩

/-- A plan lists the nodes of the tree that it is made of. -/
theorem parsed [Quantity α] {t : Tree α} (h : t.Spanning) (kind : PlanKind) (correlationId : String) :
    (Plan.parsed kind correlationId t).Walked :=
  ⟨h, rfl⟩

/-- A node of a walked plan stands at its id. -/
theorem get?_id (h : p.Walked) (hn : n ∈ p.nodes) : p.tree.get? n.id = some n := by
  obtain ⟨i, -, hi⟩ := List.mem_filterMap.mp hn
  rw [h.spanning.ids i n hi]
  exact hi

/-- The nodes are those of the list of nodes, in its order. -/
theorem map_id (h : p.Walked) : p.nodes.map Node.id = p.allNodes :=
  h.spanning.map_id_nodesAt (fun _ hi => h.spanning.lt_size_of_mem (h.allNodes ▸ hi))

theorem nodup_ids (h : p.Walked) : (p.nodes.map Node.id).Nodup := by
  rw [h.map_id, h.allNodes]
  exact h.spanning.once

end Walked

end Plan

namespace Enrichment

open DaxPlan.Tree

variable {α : Type} [Quantity α]

/-! ## Names -/

/-- Rows tell no times and no display names. -/
theorem ofRows_untouched {rows : List Row} {i : NodeId} {n : Node α} (hn : (Tree.ofRows rows).get? i = some n) :
    n.untouched = n := by
  obtain ⟨t, hclosed, hagrees⟩ := Outline.ofRows_agrees (α := α) rows
  obtain ⟨m, hm, he⟩ := hagrees.symm.get? hn
  have hplain : m.untouched = m := by
    rcases hclosed.row_or_group hm with ⟨row, -, rfl⟩ | ⟨-, rfl⟩ <;> rfl
  calc n.untouched = { n.unleveled.untouched with depth := n.depth } := rfl
    _ = { m.untouched.unleveled with depth := n.depth } := by rw [← he]; rfl
    _ = { n.unleveled with depth := n.depth } := by rw [hplain, he]
    _ = n := rfl

theorem assignEngine_unnamed {α : Type} (n : Node α) : (assignEngine n).unnamed = n.unnamed := by
  unfold assignEngine
  split <;> rfl

theorem resolveName_unnamed {α : Type} (resolver : Option Resolver) (n : Node α) :
    (resolveName resolver n).unnamed = n.unnamed := by
  cases resolver <;> rfl

theorem assignObjectName_unnamed {α : Type} (n : Node α) : (assignObjectName n).unnamed = n.unnamed := by
  unfold assignObjectName
  split <;> rfl

/-- Engines and names are given to the nodes of the tree of rows. -/
theorem namedTree_agrees (rows : List Row) (resolver : Option Resolver) :
    Agrees Node.unnamed (Tree.ofRows rows : Tree α) (namedTree rows resolver) :=
  Agrees.map _ _ (fun n => by rw [assignObjectName_unnamed, resolveName_unnamed, assignEngine_unnamed])

theorem namedTree_wellFormed (rows : List Row) (resolver : Option Resolver) : (namedTree rows resolver : Tree α).WellFormed :=
  (Outline.ofRows_wellFormed rows).of_agrees
    ((namedTree_agrees rows resolver).view (fun n => (n.links, n.depth)) (fun _ => rfl))

/-- Names are given before costs are shared out and issues are looked for. -/
theorem namedTree_plain {rows : List Row} {resolver : Option Resolver} {i : NodeId} {n : Node α}
    (hn : (namedTree rows resolver).get? i = some n) : n.costPercent = none ∧ n.issues = [] := by
  obtain ⟨t, hclosed, hagrees⟩ := Outline.ofRows_agrees (α := α) rows
  have hview : Agrees (fun n => (n.costPercent, n.issues)) t (namedTree rows resolver) :=
    (hagrees.view (fun n => (n.costPercent, n.issues)) (fun _ => rfl)).trans
      ((namedTree_agrees rows resolver).view (fun n => (n.costPercent, n.issues)) (fun _ => rfl))
  obtain ⟨m, hm, he⟩ := hview.symm.get? hn
  obtain ⟨hcost, hissues⟩ := Prod.mk.inj he
  rw [← hcost, ← hissues]
  rcases hclosed.row_or_group hm with ⟨row, -, rfl⟩ | ⟨-, rfl⟩ <;> exact ⟨rfl, rfl⟩

/-- Names are given before times are. -/
theorem namedTree_untimed {rows : List Row} {resolver : Option Resolver} {i : NodeId} {n : Node α}
    (hn : (namedTree rows resolver).get? i = some n) : n.untimed = n := by
  obtain ⟨m, hm, he⟩ := (namedTree_agrees rows resolver).symm.get? hn
  have hplain : m.untimed = m := by
    rw [← ofRows_untouched hm]
    rfl
  calc n.untimed
      = { n.unnamed.untimed with engine := n.engine, resolvedText := n.resolvedText, objectName := n.objectName } := rfl
    _ = { m.untimed.unnamed with engine := n.engine, resolvedText := n.resolvedText, objectName := n.objectName } := by
      rw [← he]; rfl
    _ = { n.unnamed with engine := n.engine, resolvedText := n.resolvedText, objectName := n.objectName } := by
      rw [hplain, he]
    _ = n := rfl

/-! ## Physical plans -/

/-- The nodes in pre-order, with engines and names. -/
def namedNodes (rows : List Row) (resolver : Option Resolver) : List (Node α) :=
  (namedTree rows resolver).nodesAt (namedTree rows resolver : Tree α).preOrder

/-- The events taken, each with the node that takes it. -/
def taken (rows : List Row) (events : List (Event α)) (resolver : Option Resolver) : List (NodeId × Event α) :=
  correlate (namedNodes rows resolver) events

/-- A plan is what comes of rows and events, but for the shares of the cost and the issues. -/
structure Enriched (rows : List Row) (events : List (Event α)) (resolver : Option Resolver) (plan : Plan α) : Prop where
  allNodes : plan.allNodes = (namedTree rows resolver : Tree α).preOrder
  tree : Agrees Node.uncharged (applyEvents (namedTree rows resolver) (taken rows events resolver)) plan.tree
  queryCount : plan.storageEngineQueryCount = (taken rows events resolver).length

/-- What events do not write is left alone by them. -/
theorem applyEvents_agrees {α β : Type} {f : Node α → β} (hevent : ∀ e n, f (applyEvent e n) = f n) (t : Tree α)
    (handed : List (NodeId × Event α)) : Agrees f t (applyEvents t handed) := by
  unfold applyEvents
  refine Agrees.foldl _ (fun t pair => ?_) handed t
  exact Agrees.modify t pair.1 _ (hevent pair.2)

/-- What neither events nor shares nor issues write is as in the tree of rows with names. -/
theorem Enriched.agrees {rows : List Row} {events : List (Event α)} {resolver : Option Resolver} {plan : Plan α} {β : Type}
    (h : Enriched rows events resolver plan) (f : Node α → β) (hevent : ∀ e n, f (applyEvent e n) = f n)
    (huncharged : ∀ n, f n = f n.uncharged) : Agrees f (namedTree rows resolver) plan.tree :=
  (applyEvents_agrees hevent _ _).trans (h.tree.view f huncharged)

theorem Enriched.wellFormed {rows : List Row} {events : List (Event α)} {resolver : Option Resolver} {plan : Plan α}
    (h : Enriched rows events resolver plan) : plan.tree.WellFormed :=
  (namedTree_wellFormed rows resolver).of_agrees (h.agrees (fun n => (n.links, n.depth)) (fun _ _ => rfl) (fun _ => rfl))

theorem Enriched.walked {rows : List Row} {events : List (Event α)} {resolver : Option Resolver} {plan : Plan α}
    (h : Enriched rows events resolver plan) : plan.Walked := by
  have hlinks := h.agrees Node.links (fun _ _ => rfl) (fun _ => rfl)
  exact ⟨h.wellFormed.toSpanning,
    h.allNodes.trans (preOrder_congr (hlinks.view (fun links => links.2.2) (fun _ => rfl))).symm⟩

theorem assignCost_uncharged (total : α) (n : Node α) : (assignCost total n).uncharged = n.uncharged := rfl

/-- Totals are put on the plan, and shares of the cost on the nodes. -/
theorem applyTotals_eq (p : Plan α) (handed : List (NodeId × Event α)) (total : α) :
    applyTotals p handed total =
      { p with
        tree := if Quantity.lt Quantity.zero total then p.tree.map (assignCost total) else p.tree
        totalDuration := total
        storageEngineDuration := Quantity.sum ((byNode handed).map Event.duration)
        storageEngineCpu := Quantity.sum ((byNode handed).map Event.cpuTime)
        storageEngineNetParallel := Quantity.sum ((byNode handed).map Event.netParallelDuration)
        formulaEngineDuration :=
          let left := total - Quantity.sum ((byNode handed).map Event.duration)
          if Quantity.lt Quantity.zero left then left else Quantity.zero
        cacheHitCount := (byNode handed).countP Event.isCacheHit
        storageEngineQueryCount := handed.length } := by
  unfold applyTotals
  dsimp only
  split <;> rfl

/-- The plan of rows and events with times and totals, before issues are looked for. -/
def timedPlan (rows : List Row) (events : List (Event α)) (resolver : Option Resolver) (correlationId : String) (total : α) :
    Plan α :=
  applyTotals ((Plan.parsed .physical correlationId (namedTree rows resolver)).mapTree
    (applyEvents · (taken rows events resolver))) (taken rows events resolver) total

/-- The queries behind the nodes of a plan, as scanned. -/
def scannedQueries (rows : List Row) (events : List (Event α)) (resolver : Option Resolver) (correlationId : String)
    (total : α) : NodeId → Option QueryInfo :=
  queryInfo? (embeddedQueries (timedPlan rows events resolver correlationId total)) (taken rows events resolver)

/-- Totals leave of the nodes alone what shares of the cost do. -/
theorem timedPlan_agrees {β : Type} {f : Node α → β} (rows : List Row) (events : List (Event α)) (resolver : Option Resolver)
    (correlationId : String) (total : α) (hcost : ∀ n, f (assignCost total n) = f n) :
    Agrees f (applyEvents (namedTree rows resolver) (taken rows events resolver))
      (timedPlan rows events resolver correlationId total).tree := by
  rw [timedPlan, applyTotals_eq]
  dsimp only
  split
  · exact Agrees.map _ _ hcost
  · exact Agrees.refl _ _

theorem timedPlan_issues (rows : List Row) (events : List (Event α)) (resolver : Option Resolver) (correlationId : String)
    (total : α) : (timedPlan rows events resolver correlationId total).issues = [] := by
  rw [timedPlan, applyTotals_eq]
  rfl

/-- Rows and valid events make a plan: times and totals, and then the issues. -/
theorem physical_eq (enricher : Enricher) (rows : List Row) (events : List (Event α)) (resolver : Option Resolver)
    (correlationId : String) (total : α) (hvalid : validate events total = .ok ()) :
    enricher.physical rows events resolver correlationId total =
      .ok (((timedPlan rows events resolver correlationId total).detect enricher.thresholds
        (scannedQueries rows events resolver correlationId total)).1.advanceTo .enriched) := by
  unfold Enricher.physical
  rw [hvalid, Plan.ofTree_eq_ok .physical correlationId (namedTree_wellFormed rows resolver).toSpanning
    (namedTree_wellFormed rows resolver).linked]
  rfl

/-- A plan is made of valid events only. -/
theorem valid_of_physical {enricher : Enricher} {rows : List Row} {events : List (Event α)} {resolver : Option Resolver}
    {correlationId : String} {total : α} {plan : Plan α}
    (h : enricher.physical rows events resolver correlationId total = .ok plan) : validate events total = .ok () := by
  cases hvalid : validate events total with
  | error e =>
    unfold Enricher.physical at h
    rw [hvalid] at h
    cases h
  | ok _ => rfl

/-- Issues apart, a plan is what comes of times and totals; and the issues are those that the rules find in that. -/
theorem physical_timed {enricher : Enricher} {rows : List Row} {events : List (Event α)} {resolver : Option Resolver}
    {correlationId : String} {total : α} {plan : Plan α}
    (h : enricher.physical rows events resolver correlationId total = .ok plan) :
    Agrees Node.undiagnosed (timedPlan rows events resolver correlationId total).tree plan.tree ∧
      plan = { timedPlan rows events resolver correlationId total with
        tree := plan.tree
        issues := (timedPlan rows events resolver correlationId total).findIssues enricher.thresholds
          (scannedQueries rows events resolver correlationId total)
        state := plan.state } := by
  have heq := physical_eq enricher rows events resolver correlationId total (valid_of_physical h)
  obtain ⟨t, hagrees, hdetected⟩ := (timedPlan rows events resolver correlationId total).detect_spec enricher.thresholds
    (scannedQueries rows events resolver correlationId total)
  rw [h, Except.ok.injEq, Plan.advanceTo_spec, hdetected, timedPlan_issues, List.nil_append] at heq
  rw [heq]
  exact ⟨hagrees, rfl⟩

theorem physical_enriched {enricher : Enricher} {rows : List Row} {events : List (Event α)} {resolver : Option Resolver}
    {correlationId : String} {total : α} {plan : Plan α}
    (h : enricher.physical rows events resolver correlationId total = .ok plan) : Enriched rows events resolver plan := by
  obtain ⟨hagrees, hplan⟩ := physical_timed h
  have htree := (timedPlan_agrees rows events resolver correlationId total (assignCost_uncharged total)).trans
    (hagrees.view Node.uncharged (fun _ => rfl))
  rw [timedPlan, applyTotals_eq] at hplan
  exact ⟨by rw [hplan]; rfl, htree, by rw [hplan]⟩

/-- Rows and valid events make a plan. -/
theorem physical_spec (enricher : Enricher) (rows : List Row) (events : List (Event α)) (resolver : Option Resolver)
    (correlationId : String) (total : α) (hvalid : validate events total = .ok ()) :
    ∃ plan, enricher.physical rows events resolver correlationId total = .ok plan ∧ Enriched rows events resolver plan := by
  have hplan := physical_eq enricher rows events resolver correlationId total hvalid
  exact ⟨_, hplan, physical_enriched hplan⟩

/-- A total and events are valid if the total is finite and not negative and no event has a flaw. -/
theorem validate_eq_ok {events : List (Event α)} {total : α} (hfinite : Quantity.isFinite total = true)
    (hsign : Quantity.lt total Quantity.zero = false) (hevents : ∀ e ∈ events, e.flaw? = none) :
    validate events total = .ok () := by
  have hnone : events.zipIdx.findSome? (fun e => e.1.flaw?.map (fun flaw => (e.2, flaw))) = none := by
    rw [List.findSome?_eq_none_iff]
    intro e he
    rw [hevents e.1 (List.fst_mem_of_mem_zipIdx he)]
    rfl
  unfold validate
  rw [hnone, hfinite, hsign]
  rfl

/-! ## Logical plans -/

/-- The tree of a list of rows, with display names and without record counts. -/
def resolvedTree (rows : List Row) (resolver : Option Resolver) : Tree α :=
  (Tree.ofRows rows).map (fun n => { resolveName resolver n with recordCount := none })

theorem resolvedTree_agrees (rows : List Row) (resolver : Option Resolver) :
    Agrees Node.uncounted (Tree.ofRows rows : Tree α) (resolvedTree rows resolver) :=
  Agrees.map _ _ (fun n => by cases resolver <;> rfl)

theorem resolvedTree_wellFormed (rows : List Row) (resolver : Option Resolver) :
    (resolvedTree rows resolver : Tree α).WellFormed :=
  (Outline.ofRows_wellFormed rows).of_agrees
    ((resolvedTree_agrees rows resolver).view (fun n => (n.links, n.depth)) (fun _ => rfl))

/-- Rows always make a logical plan. -/
theorem logical_eq (rows : List Row) (resolver : Option Resolver) (correlationId : String) :
    Enricher.logical rows resolver correlationId =
      .ok ((Plan.parsed .logical correlationId (resolvedTree rows resolver : Tree α)).advanceTo .enriched) := by
  change (Plan.ofTree .logical correlationId (resolvedTree rows resolver) >>= fun p => pure (p.advanceTo .enriched)) = _
  rw [Plan.ofTree_eq_ok .logical correlationId (resolvedTree_wellFormed rows resolver).toSpanning
    (resolvedTree_wellFormed rows resolver).linked]
  rfl

/-- Rows make a logical plan: the tree of the rows, with display names and without record counts. -/
theorem logical_spec (rows : List Row) (resolver : Option Resolver) (correlationId : String) :
    ∃ plan : Plan α, Enricher.logical rows resolver correlationId = .ok plan ∧ plan.Walked ∧
      plan.allNodes = (Tree.ofRows rows : Tree α).preOrder ∧ Agrees Node.uncounted (Tree.ofRows rows) plan.tree := by
  have hagrees := resolvedTree_agrees (α := α) rows resolver
  have hlogical := logical_eq (α := α) rows resolver correlationId
  rw [Plan.advanceTo_spec] at hlogical
  exact ⟨_, hlogical, ⟨(resolvedTree_wellFormed rows resolver).toSpanning, rfl⟩,
    preOrder_congr (hagrees.view Node.children (fun _ => rfl)), hagrees⟩

end Enrichment

end DaxPlan
