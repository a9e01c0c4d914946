import DaxPlan.Proofs.Detection.Attribution
import DaxPlan.Proofs.Enrichment.Correlation

/-!
# Which query explains a row

Enrichment gathers the queries embedded in a plan in pre-order, each with the storage engine row that it explains, and of those
gathered for a row the last one counts. A row that hands its query down to a row below is above it, and of the rows above the
nearest comes last in pre-order; the row itself comes after all of them. So what counts is the row's own query, or else the one
of the nearest row above that hands it down (`Enriched.queryOf?_eq`). The rules look at that query and at nothing else, so a
storage engine row has an issue about callbacks exactly if that query makes one for every row (`physical_callbacks`).
-/

namespace DaxPlan

/-- The scan of a query finds a callback for every row wherever there is one, whatever else it finds. -/
theorem QueryInfo.hasPerRowCallback_ofText (query : String) :
    (QueryInfo.ofText query).hasPerRowCallback = Callback.callbackDataId.occursIn query.toList := by
  change ((Callback.all.filter (·.occursIn query.toList)).head?).any Callback.isPerRow = _
  cases hoccurs : Callback.callbackDataId.occursIn query.toList with
  | true => simp [Callback.all, hoccurs, Callback.isPerRow]
  | false =>
    rw [Option.any_eq_false]
    intro c hc
    obtain ⟨hc, hcoccurs⟩ := List.mem_filter.mp (List.mem_of_head? hc)
    cases c with
    | callbackDataId =>
      rw [hoccurs] at hcoccurs
      exact absurd hcoccurs Bool.false_ne_true
    | _ => rfl

/-- The nodes of two plans tell the same if their trees do. -/
theorem Plan.nodes_congr {α β : Type} {p p' : Plan α} {f : Node α → β} (ha : Tree.Agrees f p.tree p'.tree)
    (hall : p'.allNodes = p.allNodes) : p'.nodes.map f = p.nodes.map f := by
  rw [nodes, nodes, hall]
  exact Tree.nodesAt_congr ha p.allNodes

namespace Enrichment

open DaxPlan.Tree

variable {α : Type} {t t' : Tree α} {p p' : Plan α} {n m : Node α} {i id : NodeId}

/-! ## Queries that are handed down -/

/-- The first storage engine row of a subtree. -/
def firstStorage? (t : Tree α) (id : NodeId) : Option NodeId :=
  (t.subtree id).find? (fun id => (t.get? id).any (·.engine.isStorage))

/-- A row of another engine hands down the query in its details, if there is one, to a row that is the first storage engine row
of its subtree. -/
def handsDown (t : Tree α) (id : NodeId) (m : Node α) : Bool :=
  !m.engine.isStorage && Query.isEmbeddedIn m.details.toList && firstStorage? t m.id == some id

/-- The query that explains a storage engine row: the one in its own details; else the one that the deepest row above it hands
down to it; else that of the event that comes to it. -/
def explanation? (p : Plan α) (events : List (Event α)) (n : Node α) : Option String :=
  if Query.isEmbeddedIn n.details.toList then some n.details
  else (((p.tree.nodesAt (p.tree.ancestors n.id)).find? (handsDown p.tree n.id)).map Node.details).or
    (((source p.nodes events n).bind (events[·]?)).map Event.query)

/-- A query in the details of a row explains the first storage engine row of the row's subtree. -/
theorem explained?_eq (h : t.Spanning) (hm : t.get? m.id = some m) : explained? t m = firstStorage? t m.id := by
  obtain ⟨m', below, hm', hsubtree, -⟩ := Visits.singleton_iff.mp (h.subtree_spec (lt_size_iff.mpr ⟨m, hm⟩)).1
  rw [explained?, descendants, firstStorage?, hsubtree, List.tail_cons]
  cases hs : m.engine.isStorage with
  | true => rw [List.find?_cons_of_pos (by rw [hm]; exact hs), if_pos rfl]
  | false => rw [List.find?_cons_of_neg (by rw [hm]; exact ne_true_of_eq_false hs), if_neg Bool.false_ne_true]

/-- The details of a row hold a query that explains the row given. -/
def explains (t : Tree α) (id : NodeId) (m : Node α) : Bool :=
  Query.isEmbeddedIn m.details.toList && explained? t m == some id

/-- What explains a row lies on the way to it. -/
theorem mem_path_of_explains (h : t.WellFormed) (hm : t.get? i = some m) (he : explains t id m = true) : i ∈ t.path id := by
  have hid := h.ids i m hm
  subst hid
  have hfirst : firstStorage? t m.id = some id := by
    rw [← explained?_eq h.toSpanning hm]
    exact eq_of_beq (Bool.and_eq_true_iff.mp he).2
  exact (h.mem_subtree_iff h.linked (lt_size_iff.mpr ⟨m, hm⟩)).mp (List.mem_of_find?_eq_some hfirst)

/-- A storage engine row is explained by a query of its own. -/
theorem explains_self (hs : n.engine.isStorage = true) : explains t n.id n = Query.isEmbeddedIn n.details.toList := by
  rw [explains, explained?, if_pos hs, beq_self_eq_true, Bool.and_true]

/-- Another row is explained by a query that is handed down to it. -/
theorem explains_other (h : t.Spanning) (hm : t.get? m.id = some m) (hid : m.id ≠ id) :
    explains t id m = handsDown t id m := by
  rw [handsDown, ← explained?_eq h hm, explains]
  cases hs : m.engine.isStorage with
  | true =>
    rw [explained?, if_pos hs, beq_eq_false_iff_ne.mpr (fun he => hid (Option.some.inj he)), Bool.and_false, Bool.and_false]
  | false => rw [Bool.not_false, Bool.true_and]

/-- The queries gathered for a row are in the details of the rows that explain it. -/
theorem embeddedQueries_about (p : Plan α) (id : NodeId) :
    (embeddedQueries p).filter (·.1 == id) = (p.nodes.filter (explains p.tree id)).map (fun m => (id, m.details)) := by
  rw [embeddedQueries, List.filter_filterMap, ← List.filterMap_eq_map', List.filterMap_filter]
  refine List.filterMap_congr (fun m _ => ?_)
  unfold explains
  cases Query.isEmbeddedIn m.details.toList with
  | false => rfl
  | true =>
    cases explained? p.tree m with
    | none => rfl
    | some target =>
      by_cases htarget : target = id
      · subst htarget
        simp
      · simp [htarget]

theorem find?_eq_lookup {γ : Type} (pairs : List (NodeId × γ)) (id : NodeId) :
    (pairs.find? (·.1 == id)).map Prod.snd = pairs.lookup id := by
  induction pairs with
  | nil => rfl
  | cons pair pairs ih =>
    rw [List.find?_cons, List.lookup_cons, BEq.comm]
    cases id == pair.1 with
    | true => rfl
    | false => exact ih

/-- The last query gathered for a row counts, and failing that the one of the event that the row takes. -/
theorem queryOf?_eq_or (embedded : List (NodeId × String)) (handed : List (NodeId × Event α)) (id : NodeId) :
    queryOf? embedded handed id =
      ((embedded.filter (·.1 == id)).getLast?.map Prod.snd).or ((handed.lookup id).map Event.query) := by
  rw [← find?_eq_lookup, Option.map_map, queryOf?]
  split
  next entry hentry => rw [hentry]; rfl
  next hnone => rw [hnone]; rfl

/-- The last query gathered for a storage engine row is its own, or else the one that the deepest row above it hands down. -/
theorem getLast?_embeddedQueries (h : p.Walked) (hw : p.tree.WellFormed) (hn : n ∈ p.nodes)
    (hs : n.engine.isStorage = true) :
    ((embeddedQueries p).filter (·.1 == n.id)).getLast?.map Prod.snd =
      if Query.isEmbeddedIn n.details.toList then some n.details
      else ((p.tree.nodesAt (p.tree.ancestors n.id)).find? (handsDown p.tree n.id)).map Node.details := by
  have hget := h.get?_id hn
  have habove : (p.tree.nodesAt (p.tree.ancestors n.id)).find? (explains p.tree n.id) =
      (p.tree.nodesAt (p.tree.ancestors n.id)).find? (handsDown p.tree n.id) := by
    rw [← List.head?_filter, ← List.head?_filter]
    refine congrArg List.head? (List.filter_congr (fun m hm => ?_))
    obtain ⟨i, hi, hm⟩ := List.mem_filterMap.mp hm
    obtain rfl := hw.ids i m hm
    exact explains_other hw.toSpanning hm (fun he => hw.not_mem_ancestors hw.linked n.id (he ▸ hi))
  rw [embeddedQueries_about, List.getLast?_map, Plan.nodes, h.allNodes,
    hw.getLast?_filter hget (fun i m hm he => mem_path_of_explains hw hm he), habove, explains_self hs, Option.map_map]
  split <;> rfl

/-! ## What the rules look at -/

/-- Recorded issues do not show in the queries that are gathered. -/
theorem embeddedQueries_congr (ha : Agrees Node.undiagnosed p.tree p'.tree) (hall : p'.allNodes = p.allNodes) :
    embeddedQueries p' = embeddedQueries p := by
  have hstorage : (fun id => (p'.tree.get? id).any (fun m : Node α => m.engine.isStorage)) =
      fun id => (p.tree.get? id).any (fun m : Node α => m.engine.isStorage) := by
    funext id
    have hid := congrArg (Option.any (fun m : Node α => m.engine.isStorage)) (ha.2 id)
    rw [Option.any_map, Option.any_map] at hid
    exact hid
  have hexplained : explained? p'.tree = explained? p.tree := by
    funext m
    rw [explained?, explained?, descendants, descendants, subtree_congr (ha.view Node.children (fun _ => rfl)), hstorage]
  have hnodes := congrArg (List.filterMap (fun m : Node α =>
    if Query.isEmbeddedIn m.details.toList then (explained? p.tree m).map (fun id => (id, m.details)) else none))
    (Plan.nodes_congr ha hall)
  rw [List.filterMap_map, List.filterMap_map] at hnodes
  rw [embeddedQueries, embeddedQueries, hexplained]
  exact hnodes

variable [Quantity α]

/-- Recorded issues do not show in what the rules find. -/
theorem findIssues_congr (ha : Agrees Node.undiagnosed p.tree p'.tree) (hall : p'.allNodes = p.allNodes)
    (thresholds : IssueThresholds) (queries : NodeId → Option QueryInfo) :
    p'.findIssues thresholds queries = p.findIssues thresholds queries := by
  have hnodes := congrArg (List.flatMap (Detection.issuesOf thresholds queries)) (Plan.nodes_congr ha hall)
  rw [List.flatMap_map, List.flatMap_map] at hnodes
  exact hnodes

variable {enricher : Enricher} {rows : List Row} {events : List (Event α)} {resolver : Option Resolver}
  {correlationId : String} {total : α} {plan : Plan α}

/-- The issues of a plan are those that the rules find in it with the queries gathered from it. -/
theorem physical_issues (h : enricher.physical rows events resolver correlationId total = .ok plan) :
    plan.issues = plan.findIssues enricher.thresholds
      (queryInfo? (embeddedQueries plan) (taken rows events resolver)) := by
  obtain ⟨hagrees, hplan⟩ := physical_timed h
  have hall := congrArg Plan.allNodes hplan
  rw [embeddedQueries_congr hagrees hall, findIssues_congr hagrees hall]
  exact congrArg Plan.issues hplan

/-- Each node of a plan knows the issues about it. -/
theorem physical_attributed (h : enricher.physical rows events resolver correlationId total = .ok plan) :
    plan.Attributed := by
  have htimed : (timedPlan rows events resolver correlationId total).Attributed := by
    refine Plan.Attributed.of_no_issues (timedPlan_issues rows events resolver correlationId total) (fun i n hn => ?_)
    have hagrees := (applyEvents_agrees (f := Node.issues) (fun _ _ => rfl) (namedTree rows resolver)
      (taken rows events resolver)).trans (timedPlan_agrees rows events resolver correlationId total (fun _ => rfl))
    obtain ⟨m, hm, he⟩ := hagrees.symm.get? hn
    rw [← he]
    exact (namedTree_plain hm).2
  have heq := physical_eq enricher rows events resolver correlationId total (valid_of_physical h)
  rw [h, Except.ok.injEq, Plan.advanceTo_spec] at heq
  rw [heq]
  exact htimed.detect enricher.thresholds (scannedQueries rows events resolver correlationId total)

/-- What is scanned for a storage engine row is the query that explains it. -/
theorem Enriched.queryOf?_eq (h : Enriched rows events resolver plan) (hn : n ∈ plan.nodes)
    (hs : n.engine.isStorage = true) :
    queryOf? (embeddedQueries plan) (taken rows events resolver) n.id = explanation? plan events n := by
  rw [queryOf?_eq_or, getLast?_embeddedQueries h.walked h.wellFormed hn hs, h.taken_eq,
    lookup_eq_source h.walked.nodup_ids events hn, explanation?]
  split <;> rfl

/-- Enrichment with a valid total and valid events makes a plan, and in it each node knows the issues about it. Of those one is
about a callback for every row if the node is a storage engine row and the query that explains it makes such a callback, and
none is otherwise. -/
theorem physical_callbacks (enricher : Enricher) (rows : List Row) (events : List (Event α)) (resolver : Option Resolver)
    (correlationId : String) (total : α) (hfinite : Quantity.isFinite total = true)
    (hsign : Quantity.lt total Quantity.zero = false) (hevents : ∀ e ∈ events, e.flaw? = none) :
    ∃ plan, enricher.physical rows events resolver correlationId total = .ok plan ∧
      plan.tree.WellFormed ∧ plan.allNodes = plan.tree.preOrder ∧
      ∀ n ∈ plan.nodes, plan.issuesAt n = plan.issues.filter (·.node == n.id) ∧
        ((plan.issuesAt n).filter (·.kind == .callbackDataId)).length =
          if n.engine.isStorage && (explanation? plan events n).any (fun query =>
            Callback.callbackDataId.occursIn query.toList) then 1 else 0 := by
  obtain ⟨plan, hplan, henriched⟩ := physical_spec enricher rows events resolver correlationId total
    (validate_eq_ok hfinite hsign hevents)
  refine ⟨plan, hplan, henriched.wellFormed, henriched.walked.allNodes, fun n hn => ?_⟩
  have hissues := (physical_attributed hplan).issuesAt_eq (henriched.walked.get?_id hn)
  refine ⟨hissues, ?_⟩
  have hlength : ∀ o : Option (Issue α), o.toList.length = if o.isSome then 1 else 0 := by
    intro o
    cases o <;> rfl
  rw [hissues, physical_issues hplan, Detection.findIssues_about _ _ henriched.walked.nodup_ids hn,
    Detection.callbacks_issuesOf, hlength, Detection.isSome_callback?]
  cases hs : n.engine.isStorage with
  | false => rfl
  | true =>
    rw [queryInfo?, henriched.queryOf?_eq hn hs, Option.any_map]
    simp only [QueryInfo.hasPerRowCallback_ofText]

/-- A query with the callback stands above two rows that read tables. It explains the first, for all that the event of that row
has a query of its own; the second has none. -/
theorem physical_callbacks_above :
    let rows : List Row := [⟨1, 0, "AddColumns", "CallbackDataID(1)", .iterator, none, none⟩,
      ⟨2, 1, "Scan_Vertipaq", "'Sales'[A]", .storageScan, none, none⟩,
      ⟨3, 1, "Scan_Vertipaq", "'Sales'[B]", .storageScan, none, none⟩]
    let events : List (Event Rat) := [Event.ofDuration (some "Sales") "SELECT 1" 3]
    (∀ e ∈ events, e.flaw? = none) ∧
      ∃ plan, ({} : Enricher).physical rows events none "" 10 = .ok plan ∧
        (∀ n ∈ plan.nodes, ((plan.issuesAt n).filter (·.kind == .callbackDataId)).length =
          if n.engine.isStorage && (explanation? plan events n).any (fun query =>
            Callback.callbackDataId.occursIn query.toList) then 1 else 0) ∧
        plan.nodes.map (fun n => ((plan.issuesAt n).filter (·.kind == .callbackDataId)).length) = [0, 1, 0] := by
  intro rows events
  have hevents : ∀ e ∈ events, e.flaw? = none := by decide +kernel
  obtain ⟨plan, hplan, -, -, hcallbacks⟩ := physical_callbacks {} rows events none "" 10 rfl rfl hevents
  have hvalues : (({} : Enricher).physical rows events none "" 10).toOption.map (fun p =>
      p.nodes.map (fun n => ((p.issuesAt n).filter (·.kind == .callbackDataId)).length)) = some [0, 1, 0] := by decide +kernel
  rw [hplan] at hvalues
  exact ⟨hevents, plan, hplan, fun n hn => (hcallbacks n hn).2, Option.some.inj hvalues⟩

end Enrichment

end DaxPlan
