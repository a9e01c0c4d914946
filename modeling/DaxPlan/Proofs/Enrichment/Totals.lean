import DaxPlan.Proofs.Enrichment.Correlation
import DaxPlan.Proofs.Number.Exact

/-!
# Totals and the nodes they add up

The totals of a plan are added up from the events that were taken, in the order of the ids of the nodes that took them, and the
nodes tell the times of those same events. So the totals can be told from the nodes: they add up the times that the nodes tell,
in the order of the arena (`physical_totals`). In exact arithmetic the two engines share out the total, unless the storage engine
alone takes longer, and the shares of the nodes make up that of the storage engine.
-/

namespace DaxPlan

/-! ## The arena -/

namespace Tree

variable {α : Type} {t : Tree α}

/-- The arena holds the nodes in the order of their places. -/
theorem nodesAt_range (t : Tree α) : t.nodesAt (List.range t.size) = t.nodes.toList := by
  have hlist : ∀ nodes : List (Node α), (List.range nodes.length).filterMap (nodes[·]?) = nodes := by
    intro nodes
    induction nodes with
    | nil => rfl
    | cons n nodes ih =>
      rw [List.length_cons, List.range_succ_eq_map, List.filterMap_cons_some List.getElem?_cons_zero, List.filterMap_map]
      exact congrArg (n :: ·) ih
  rw [nodesAt, show t.get? = (t.nodes.toList[·]?) from funext (fun i => Array.getElem?_toList.symm)]
  exact hlist t.nodes.toList

/-- In a tree that spans the arena the pre-order holds the nodes of the arena, in another order. -/
theorem Spanning.nodesAt_perm (h : t.Spanning) : (t.nodesAt t.preOrder).Perm t.nodes.toList := by
  rw [← nodesAt_range]
  exact h.preOrder_perm.filterMap t.get?

end Tree

namespace Enrichment

open DaxPlan.Tree

variable {α : Type} {handed : List (NodeId × Event α)}

/-! ## The events taken -/

/-- What is looked up for the ids below a bound, beside the ids and in their order. -/
def listing {γ : Type} (pairs : List (NodeId × γ)) (size : Nat) : List (NodeId × γ) :=
  (List.range size).filterMap (fun i => (pairs.lookup i).map (fun x => (i, x)))

theorem mem_listing {γ : Type} {pairs : List (NodeId × γ)} (h : (pairs.map Prod.fst).Nodup) {size : Nat}
    (hlt : ∀ pair ∈ pairs, pair.1 < size) (pair : NodeId × γ) : pair ∈ listing pairs size ↔ pair ∈ pairs := by
  obtain ⟨i, x⟩ := pair
  rw [listing, List.mem_filterMap]
  constructor
  · rintro ⟨j, -, hj⟩
    obtain ⟨x', hx', hpair⟩ := Option.map_eq_some_iff.mp hj
    obtain ⟨rfl, rfl⟩ := Prod.mk.inj hpair
    obtain ⟨above, below, rfl, -⟩ := List.lookup_eq_some_iff.mp hx'
    exact List.mem_append_right _ List.mem_cons_self
  · intro hpair
    exact ⟨i, List.mem_range.mpr (hlt _ hpair), by rw [lookup_of_mem h hpair]; rfl⟩

theorem pairwise_listing {γ : Type} (pairs : List (NodeId × γ)) (size : Nat) :
    (listing pairs size).Pairwise (fun a b => a.1 < b.1) := by
  rw [listing, List.pairwise_filterMap]
  refine List.pairwise_lt_range.imp (fun hij a ha b hb => ?_)
  obtain ⟨_, -, rfl⟩ := Option.map_eq_some_iff.mp ha
  obtain ⟨_, -, rfl⟩ := Option.map_eq_some_iff.mp hb
  exact hij

/-- Sorted by ids, what is listed for each id once stands in the order of the ids. -/
theorem mergeSort_eq_listing {γ : Type} {pairs : List (NodeId × γ)} (h : (pairs.map Prod.fst).Nodup) {size : Nat}
    (hlt : ∀ pair ∈ pairs, pair.1 < size) : pairs.mergeSort (fun a b => a.1 ≤ b.1) = listing pairs size := by
  have hkeys := pairwise_listing pairs size
  have hsorted := @List.pairwise_mergeSort (NodeId × γ) (fun a b => a.1 ≤ b.1)
    (fun a b c hab hbc => by simpa using Nat.le_trans (of_decide_eq_true hab) (of_decide_eq_true hbc))
    (fun a b => by simpa using Nat.le_total a.1 b.1) pairs
  have hperm : (pairs.mergeSort (fun a b => a.1 ≤ b.1)).Perm (listing pairs size) := by
    refine (List.mergeSort_perm _ _).trans ?_
    have hnodup := hkeys.imp (S := (· ≠ ·)) (fun hij he => Nat.ne_of_lt hij (congrArg Prod.fst he))
    exact (List.perm_ext_iff_of_nodup (h.of_map _) hnodup).mpr (fun pair => (mem_listing h hlt pair).symm)
  refine hperm.eq_of_pairwise (fun a b ha hb hab hba => ?_) hsorted
    (hkeys.imp (fun hij => decide_eq_true (Nat.le_of_lt hij)))
  have hid : a.1 = b.1 := Nat.le_antisymm (of_decide_eq_true hab) (of_decide_eq_true hba)
  exact List.inj_on_of_nodup_map h (List.mem_mergeSort.mp ha) ((mem_listing h hlt b).mp hb) hid

/-- In the order of ids stands what is looked up for each id. -/
theorem byNode_eq_lookup (h : (handed.map Prod.fst).Nodup) {size : Nat} (hlt : ∀ pair ∈ handed, pair.1 < size) :
    byNode handed = (List.range size).filterMap (handed.lookup ·) := by
  rw [byNode, mergeSort_eq_listing h hlt, listing, List.map_filterMap]
  refine List.filterMap_congr (fun i _ => ?_)
  rw [Option.map_map]
  exact Option.map_id'

theorem length_byNode (handed : List (NodeId × Event α)) : (byNode handed).length = handed.length := by
  rw [byNode, List.length_map, List.length_mergeSort]

variable [Quantity α] {rows : List Row} {events : List (Event α)} {resolver : Option Resolver} {plan : Plan α}

/-- The events taken, in the order of the arena. -/
theorem Enriched.byNode_taken (h : Enriched rows events resolver plan) :
    byNode (taken rows events resolver) = (List.range plan.tree.size).filterMap ((taken rows events resolver).lookup ·) := by
  rw [h.taken_eq]
  refine byNode_eq_lookup (nodup_correlate h.walked.nodup_ids events) (fun pair hpair => ?_)
  have hid := (correlate_sublist plan.nodes events).subset (List.mem_map_of_mem hpair)
  obtain ⟨n, hn, hid⟩ := List.mem_map.mp hid
  rw [← hid]
  exact lt_size_iff.mpr ⟨n, h.walked.get?_id (List.mem_of_mem_filter hn)⟩

/-- What the nodes of the arena tell of their events is what the events taken tell. -/
theorem Enriched.filterMap_nodes {β : Type} (h : Enriched rows events resolver plan) {g : Node α → Option β}
    {f : Event α → β} (hshows : ∀ (n : Node α) e, n.Shows e → g n = e.map f) :
    plan.tree.nodes.toList.filterMap g = (byNode (taken rows events resolver)).map f := by
  rw [h.byNode_taken, List.map_filterMap, ← nodesAt_range, nodesAt, List.filterMap_filterMap]
  refine List.filterMap_congr (fun i hi => ?_)
  obtain ⟨n, hn⟩ := lt_size_iff.mp (List.mem_range.mp hi)
  rw [hn]
  exact hshows n _ (h.shows_taken hn)

/-- As many nodes of the arena are cache hits as events taken are. -/
theorem Enriched.countP_isCacheHit (h : Enriched rows events resolver plan) :
    plan.tree.nodes.toList.countP Node.isCacheHit = (byNode (taken rows events resolver)).countP Event.isCacheHit := by
  rw [h.byNode_taken, ← nodesAt_range, nodesAt, List.countP_filterMap, List.countP_filterMap]
  refine List.countP_congr (fun i hi => ?_)
  obtain ⟨n, hn⟩ := lt_size_iff.mp (List.mem_range.mp hi)
  rw [hn, Option.map_some, Option.getD_some, (h.shows_taken hn).isCacheHit]
  cases (taken rows events resolver).lookup i <;> exact Iff.rfl

/-! ## What the passes put down -/

/-- The totals are those of the events taken. -/
theorem physical_total_eq {enricher : Enricher} {correlationId : String} {total : α}
    (h : enricher.physical rows events resolver correlationId total = .ok plan) :
    let storage := Quantity.sum ((byNode (taken rows events resolver)).map Event.duration)
    plan.totalDuration = total ∧ plan.storageEngineDuration = storage ∧
      plan.storageEngineCpu = Quantity.sum ((byNode (taken rows events resolver)).map Event.cpuTime) ∧
      plan.formulaEngineDuration =
        (if Quantity.lt Quantity.zero (total - storage) then total - storage else Quantity.zero) ∧
      plan.cacheHitCount = (byNode (taken rows events resolver)).countP Event.isCacheHit := by
  obtain ⟨-, hplan⟩ := physical_timed h
  rw [timedPlan, applyTotals_eq] at hplan
  rw [hplan]
  exact ⟨rfl, rfl, rfl, rfl, rfl⟩

/-- A node is charged its share of a positive total, and nothing otherwise. -/
theorem physical_cost {enricher : Enricher} {correlationId : String} {total : α}
    (h : enricher.physical rows events resolver correlationId total = .ok plan) {i : NodeId} {n : Node α}
    (hn : plan.tree.get? i = some n) :
    n.costPercent = if Quantity.lt Quantity.zero total then n.duration.map (Plan.percentOf · total) else none := by
  obtain ⟨m, hm, he⟩ := (physical_timed h).1.symm.get? hn
  have hcost : n.costPercent = m.costPercent := (congrArg Node.costPercent he).symm
  have hduration : n.duration = m.duration := (congrArg Node.duration he).symm
  rw [hcost, hduration]
  rw [timedPlan, applyTotals_eq] at hm
  dsimp only at hm
  split
  next hpositive =>
    rw [if_pos hpositive, get?_map] at hm
    obtain ⟨m', -, rfl⟩ := Option.map_eq_some_iff.mp hm
    rfl
  next hpositive =>
    rw [if_neg hpositive] at hm
    obtain ⟨m', hm', he'⟩ := (applyEvents_agrees (f := Node.costPercent) (fun _ _ => rfl) _ _).symm.get? hm
    rw [← he']
    exact (namedTree_plain hm').1

/-- The list of nodes holds those of the arena, which stand there in the order of their ids. -/
theorem Enriched.arena (h : Enriched rows events resolver plan) :
    plan.tree.nodes.toList.map Node.id = List.range plan.tree.size ∧ plan.nodes.Perm plan.tree.nodes.toList := by
  rw [← nodesAt_range, Plan.nodes, h.walked.allNodes]
  refine ⟨h.walked.spanning.map_id_nodesAt (fun _ hi => List.mem_range.mp hi), ?_⟩
  rw [nodesAt_range]
  exact h.walked.spanning.nodesAt_perm

/-- The duration of the storage engine adds up what the nodes tell, in the order of ids. -/
theorem physical_storage {enricher : Enricher} {correlationId : String} {total : α}
    (h : enricher.physical rows events resolver correlationId total = .ok plan) :
    plan.storageEngineDuration = Quantity.sum (plan.tree.nodes.toList.filterMap Node.duration) := by
  rw [(physical_total_eq h).2.1, (physical_enriched h).filterMap_nodes (fun n e (hn : n.Shows e) => hn.duration)]

/-! ## The balance -/

/-- What is left of the total, if anything is. -/
theorem left_eq_max (x : Rat) : (if Quantity.lt Quantity.zero x then x else Quantity.zero) = max 0 x := by
  rw [Quantity.zero_rat]
  by_cases hx : 0 < x
  · rw [if_pos (Quantity.lt_rat_iff.mpr hx), max_eq_right (le_of_lt hx)]
  · rw [if_neg (fun h => hx (Quantity.lt_rat_iff.mp h)), max_eq_left (not_lt.mp hx)]

/-- The shares of a positive total add up to the share of the sum. -/
theorem sum_percentOf (xs : List Rat) (total : Rat) :
    (xs.map (Plan.percentOf · total)).sum = Plan.percentOf xs.sum total := by
  have hshare : ∀ x : Rat, Plan.percentOf x total = x * (100 / total) := fun x => mul_div_assoc x 100 total
  simp only [hshare]
  exact (List.sum_map_mul_right xs (fun x => x) (100 / total)).trans (by rw [List.map_id'])

/-- The totals of a plan add up, in the order of ids, the times that its nodes tell. In exact arithmetic the formula engine has
what the storage engine leaves of the total, and the nodes' shares of a positive total make up that of the storage engine. -/
theorem physical_totals :
    (∀ {α : Type} [Quantity α] (enricher : Enricher) (rows : List Row) (events : List (Event α)) (resolver : Option Resolver)
      (correlationId : String) (total : α) (plan : Plan α),
      enricher.physical rows events resolver correlationId total = .ok plan →
      let nodes := plan.tree.nodes.toList
      nodes.map Node.id = List.range plan.tree.size ∧ plan.nodes.Perm nodes ∧
      plan.storageEngineDuration = Quantity.sum (nodes.filterMap Node.duration) ∧
      plan.storageEngineCpu = Quantity.sum (nodes.filterMap Node.cpuTime) ∧
      plan.storageEngineQueryCount = nodes.countP (·.duration.isSome) ∧
      plan.cacheHitCount = nodes.countP Node.isCacheHit) ∧
    (∀ (enricher : Enricher) (rows : List Row) (events : List (Event Rat)) (resolver : Option Resolver)
      (correlationId : String) (total : Rat) (plan : Plan Rat),
      enricher.physical rows events resolver correlationId total = .ok plan →
      plan.formulaEngineDuration = max 0 (total - plan.storageEngineDuration) ∧
      plan.formulaEngineDuration + plan.storageEngineDuration = max total plan.storageEngineDuration ∧
      (∀ n ∈ plan.nodes, n.costPercent.isSome ↔ n.duration.isSome ∧ 0 < total) ∧
      (0 < total → plan.storageEnginePercent = some (plan.nodes.filterMap Node.costPercent).sum)) := by
  constructor
  · intro α _ enricher rows events resolver correlationId total plan h nodes
    have henriched := physical_enriched h
    obtain ⟨-, -, hcpu, -, hhits⟩ := physical_total_eq h
    obtain ⟨hids, hperm⟩ := henriched.arena
    refine ⟨hids, hperm, physical_storage h, ?cpu, ?count, ?hits⟩
    case cpu => rw [hcpu, henriched.filterMap_nodes (fun n e (hn : n.Shows e) => hn.cpuTime)]
    case count =>
      rw [← List.length_filterMap_eq_countP, henriched.filterMap_nodes (fun n e (hn : n.Shows e) => hn.duration),
        List.length_map, length_byNode, henriched.queryCount]
    case hits => rw [hhits, henriched.countP_isCacheHit]
  · intro enricher rows events resolver correlationId total plan h
    obtain ⟨htotal, hstorage, -, hformula, -⟩ := physical_total_eq h
    rw [← hstorage] at hformula
    have hshare : plan.formulaEngineDuration = max 0 (total - plan.storageEngineDuration) := by
      rw [hformula]
      exact left_eq_max _
    have hpositive : Quantity.lt Quantity.zero total = true ↔ 0 < total := by
      rw [Quantity.zero_rat]
      exact Quantity.lt_rat_iff
    refine ⟨hshare, ?balance, ?charged, ?share⟩
    case balance => rw [hshare, max_add, zero_add, sub_add_cancel, max_comm]
    case charged =>
      intro n hn
      rw [physical_cost h ((physical_enriched h).walked.get?_id hn)]
      split
      next hlt => simp [hpositive.mp hlt]
      next hlt => simp [mt hpositive.mpr hlt]
    case share =>
      intro hlt
      have henriched := physical_enriched h
      have hcosts : plan.nodes.filterMap Node.costPercent = (plan.nodes.filterMap Node.duration).map (Plan.percentOf · total) := by
        rw [List.map_filterMap]
        refine List.filterMap_congr (fun n hn => ?_)
        rw [physical_cost h (henriched.walked.get?_id hn), if_pos (hpositive.mpr hlt)]
      have hdurations : (plan.nodes.filterMap Node.duration).sum = plan.storageEngineDuration := by
        rw [physical_storage h, Quantity.sum_rat]
        exact (henriched.arena.2.filterMap Node.duration).sum_eq
      rw [hcosts, sum_percentOf, hdurations, Plan.storageEnginePercent, htotal, if_pos (hpositive.mpr hlt)]

/-- Two rows read one table and take its two events, the second of them out of the cache. -/
theorem physical_totals_sales :
    let row (details : String) : Row := ⟨1, 0, "Scan_Vertipaq", details, .storageScan, none, none⟩
    let events : List (Event Rat) := [Event.ofDuration (some "SALES") "" 4,
      (Event.ofDuration (some "sales") "" 3).withSubclass .vertipaqCacheExactMatch]
    ∃ plan, ({} : Enricher).physical [row "'Sales'[A]", row "'Sales'[B]"] events none "" 10 = .ok plan ∧
      plan.storageEngineDuration = 7 ∧ plan.formulaEngineDuration = 3 ∧ plan.cacheHitCount = 1 ∧
      plan.nodes.map Node.costPercent = [none, some 40, some 30] ∧ plan.storageEnginePercent = some 70 := by
  intro row events
  have hvalues : (({} : Enricher).physical [row "'Sales'[A]", row "'Sales'[B]"] events none "" 10).toOption.map
      (fun p => (p.tree.nodes.toList.filterMap Node.duration, p.tree.nodes.toList.countP Node.isCacheHit,
        p.nodes.map Node.costPercent)) = some ([4, 3], 1, [none, some 40, some 30]) := by decide +kernel
  cases hplan : ({} : Enricher).physical [row "'Sales'[A]", row "'Sales'[B]"] events none "" 10 with
  | error e =>
    rw [hplan] at hvalues
    cases hvalues
  | ok plan =>
    rw [hplan] at hvalues
    obtain ⟨hdurations, hrest⟩ := Prod.mk.inj (Option.some.inj hvalues)
    obtain ⟨hcacheHits, hcosts⟩ := Prod.mk.inj hrest
    obtain ⟨-, -, hstorage, -, -, hhits⟩ := physical_totals.1 {} _ _ none "" 10 plan hplan
    obtain ⟨hformula, -, -, hshare⟩ := physical_totals.2 {} _ _ none "" 10 plan hplan
    have hseven : plan.storageEngineDuration = 7 := by
      rw [hstorage, hdurations]
      decide +kernel
    have hpercent : plan.nodes.filterMap Node.costPercent = [40, 30] := by
      calc plan.nodes.filterMap Node.costPercent
        _ = (plan.nodes.map Node.costPercent).filterMap id := by rw [List.filterMap_map]; rfl
        _ = [40, 30] := by rw [hcosts]; rfl
    refine ⟨plan, rfl, hseven, ?_, hhits.trans hcacheHits, hcosts, ?_⟩
    · rw [hformula, hseven]
      decide +kernel
    · rw [hshare (by decide), hpercent]
      decide +kernel

end Enrichment

end DaxPlan
