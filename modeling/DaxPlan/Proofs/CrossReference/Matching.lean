import DaxPlan.CrossReference
import DaxPlan.Proofs.Enrichment.Passes
import Mathlib.Data.List.Forall2
import Mathlib.Data.Rat.Defs

/-!
# The matching of a logical with a physical plan

The rows of a logical plan are matched with rows of the physical plan from left to right, and each takes the first row with its
operation that stands behind all rows taken so far (`GreedyMatching`). A row that finds none leaves the rows behind the last one
taken to the rows after it.

A cross reference matches the nodes of two plans so and writes the engine and the record count of the partners, nothing else; to
repeat it changes nothing, and a logical and a physical plan of the same rows are matched row by row (`crossReference_matches`).
-/

namespace DaxPlan

namespace CrossReference

/-! ## Greedy matchings -/

/-- A place behind all partners of the rows above a row. -/
def Behind (matched : List (Nat × Nat)) (i j : Nat) : Prop := ∀ q ∈ matched, q.1 < i → q.2 < j

/-- Two lists of operations are matched from left to right: a pair tells the places of an operation in both. -/
structure GreedyMatching (logical physical : List String) (matched : List (Nat × Nat)) : Prop where
  /-- The pairs ascend in both lists, so no place is matched twice. -/
  increasing : matched.Pairwise (fun q r => q.1 < r.1 ∧ q.2 < r.2)
  /-- Matched operations are equal. -/
  equal : ∀ q ∈ matched, ∃ operation, logical[q.1]? = some operation ∧ physical[q.2]? = some operation
  /-- An equal operation behind the earlier partners is not passed over. -/
  first : ∀ q ∈ matched, ∀ j, Behind matched q.1 j → j < q.2 → physical[j]? ≠ logical[q.1]?
  /-- What is not matched has no equal behind the earlier partners. -/
  unmatched : ∀ i, i < logical.length → (∀ q ∈ matched, q.1 ≠ i) → ∀ j, Behind matched i j → physical[j]? ≠ logical[i]?

theorem getElem?_after {γ : Type} (before rest : List γ) (x : γ) (j : Nat) :
    (before ++ x :: rest)[before.length + 1 + j]? = rest[j]? := by
  rw [List.getElem?_append_right (by omega), show before.length + 1 + j - before.length = j + 1 by omega,
    List.getElem?_cons_succ]

variable {logical physical rest before : List String} {operation : String} {matched : List (Nat × Nat)} {i j : Nat}

theorem getElem?_ne_before (h : operation ∉ before) (hj : j < before.length) :
    (before ++ operation :: rest)[j]? ≠ some operation := by
  rw [List.getElem?_append_left hj]
  exact fun he => h (List.mem_of_getElem? he)

/-- What is behind all partners after a match is behind the first partner, and behind the others there. -/
theorem behind_hit (h : Behind ((0, before.length) :: matched.map (fun q => (q.1 + 1, before.length + 1 + q.2))) (i + 1) j) :
    ∃ k, j = before.length + 1 + k ∧ Behind matched i k := by
  have hfirst : before.length < j := h (0, before.length) List.mem_cons_self (Nat.succ_pos i)
  refine ⟨j - (before.length + 1), by omega, fun q hq hlt => ?_⟩
  have hshifted := h _ (List.mem_cons_of_mem _ (List.mem_map_of_mem hq)) (Nat.succ_lt_succ hlt)
  dsimp only at hshifted
  omega

theorem behind_miss (h : Behind (matched.map (fun q => (q.1 + 1, q.2))) (i + 1) j) : Behind matched i j :=
  fun q hq hlt => h (q.1 + 1, q.2) (List.mem_map_of_mem hq) (Nat.succ_lt_succ hlt)

namespace GreedyMatching

theorem nil (physical : List String) : GreedyMatching [] physical [] where
  increasing := List.Pairwise.nil
  equal := nofun
  first := nofun
  unmatched := nofun

/-- The first operation is matched with the first equal one. -/
theorem hit (h : GreedyMatching logical rest matched) (hbefore : operation ∉ before) :
    GreedyMatching (operation :: logical) (before ++ operation :: rest)
      ((0, before.length) :: matched.map (fun q => (q.1 + 1, before.length + 1 + q.2))) where
  increasing := by
    refine List.pairwise_cons.mpr ⟨?_, List.pairwise_map.mpr (h.increasing.imp (fun hlt => ?_))⟩
    · intro r hr
      obtain ⟨q, -, rfl⟩ := List.mem_map.mp hr
      exact ⟨Nat.succ_pos q.1, by dsimp only; omega⟩
    · exact ⟨Nat.succ_lt_succ hlt.1, Nat.add_lt_add_left hlt.2 _⟩
  equal := by
    intro q hq
    rcases List.mem_cons.mp hq with rfl | hq
    · refine ⟨operation, rfl, ?_⟩
      rw [List.getElem?_append_right (Nat.le_refl _), Nat.sub_self, List.getElem?_cons_zero]
    · obtain ⟨r, hr, rfl⟩ := List.mem_map.mp hq
      obtain ⟨o, hlogical, hphysical⟩ := h.equal r hr
      exact ⟨o, hlogical, by rw [getElem?_after, hphysical]⟩
  first := by
    intro q hq j hbehind hj
    rcases List.mem_cons.mp hq with rfl | hq
    · exact getElem?_ne_before hbefore hj
    · obtain ⟨r, hr, rfl⟩ := List.mem_map.mp hq
      obtain ⟨k, rfl, hk⟩ := behind_hit hbehind
      rw [getElem?_after, List.getElem?_cons_succ]
      exact h.first r hr k hk (Nat.lt_of_add_lt_add_left hj)
  unmatched := by
    intro i hi hfree j hbehind
    cases i with
    | zero => exact absurd rfl (hfree _ List.mem_cons_self)
    | succ i =>
      obtain ⟨k, rfl, hk⟩ := behind_hit hbehind
      rw [getElem?_after, List.getElem?_cons_succ]
      refine h.unmatched i (Nat.lt_of_succ_lt_succ hi) (fun q hq he => ?_) k hk
      exact hfree _ (List.mem_cons_of_mem _ (List.mem_map_of_mem hq)) (congrArg Nat.succ he)

/-- The first operation has no equal. -/
theorem miss (h : GreedyMatching logical physical matched) (hnone : operation ∉ physical) :
    GreedyMatching (operation :: logical) physical (matched.map (fun q => (q.1 + 1, q.2))) where
  increasing := List.pairwise_map.mpr (h.increasing.imp (fun hlt => ⟨Nat.succ_lt_succ hlt.1, hlt.2⟩))
  equal := by
    intro q hq
    obtain ⟨r, hr, rfl⟩ := List.mem_map.mp hq
    exact h.equal r hr
  first := by
    intro q hq j hbehind hj
    obtain ⟨r, hr, rfl⟩ := List.mem_map.mp hq
    exact h.first r hr j (behind_miss hbehind) hj
  unmatched := by
    intro i hi hfree j hbehind
    cases i with
    | zero => exact fun he => hnone (List.mem_of_getElem? he)
    | succ i =>
      refine h.unmatched i (Nat.lt_of_succ_lt_succ hi) (fun q hq he => ?_) j (behind_miss hbehind)
      exact hfree _ (List.mem_map_of_mem hq) (congrArg Nat.succ he)

end GreedyMatching

/-! ## Pairs of nodes -/

variable {α : Type} {ls ls' ps rest : List (Node α)} {l p : Node α}

theorem nextMatch?_some (h : nextMatch? operation ps = some (p, rest)) :
    ∃ before, ps = before ++ p :: rest ∧ p.operation = operation ∧ operation ∉ before.map Node.operation := by
  induction ps with
  | nil => cases h
  | cons m ps ih =>
    rw [nextMatch?] at h
    split at h
    next hm =>
      rw [Option.some.injEq, Prod.mk.injEq] at h
      obtain ⟨rfl, rfl⟩ := h
      exact ⟨[], rfl, eq_of_beq hm, List.not_mem_nil⟩
    next hm =>
      obtain ⟨before, rfl, hp, hbefore⟩ := ih h
      refine ⟨m :: before, rfl, hp, fun hmem => ?_⟩
      rcases List.mem_cons.mp hmem with he | hmem
      · exact hm (beq_iff_eq.mpr he.symm)
      · exact hbefore hmem

theorem nextMatch?_none (h : nextMatch? operation ps = none) : operation ∉ ps.map Node.operation := by
  induction ps with
  | nil => exact List.not_mem_nil
  | cons m ps ih =>
    rw [nextMatch?] at h
    split at h
    next => cases h
    next hm =>
      intro hmem
      rcases List.mem_cons.mp hmem with he | hmem
      · exact hm (beq_iff_eq.mpr he.symm)
      · exact ih h hmem

/-- A pair of places and a pair of a node's id and its partner tell the same. -/
def Stands (ls ps : List (Node α)) (q : Nat × Nat) (pair : NodeId × Node α) : Prop :=
  (ls.map Node.id)[q.1]? = some pair.1 ∧ ps[q.2]? = some pair.2

/-- The pairs are those of a greedy matching. -/
theorem pairs_greedy (ls ps : List (Node α)) :
    ∃ matched, GreedyMatching (ls.map Node.operation) (ps.map Node.operation) matched ∧
      List.Forall₂ (Stands ls ps) matched (pairs ls ps) := by
  induction ls generalizing ps with
  | nil => exact ⟨[], GreedyMatching.nil _, List.Forall₂.nil⟩
  | cons l ls ih =>
    cases hnext : nextMatch? l.operation ps with
    | none =>
      obtain ⟨matched, hgreedy, hstands⟩ := ih ps
      have hpairs : pairs (l :: ls) ps = pairs ls ps := by rw [pairs, hnext]
      refine ⟨_, hgreedy.miss (nextMatch?_none hnext), ?_⟩
      rw [hpairs]
      exact List.forall₂_map_left_iff.mpr hstands
    | some found =>
      obtain ⟨partner, rest⟩ := found
      obtain ⟨before, rfl, hpartner, hbefore⟩ := nextMatch?_some hnext
      obtain ⟨matched, hgreedy, hstands⟩ := ih rest
      have hpairs : pairs (l :: ls) (before ++ partner :: rest) = (l.id, partner) :: pairs ls rest := by rw [pairs, hnext]
      have hhit := hgreedy.hit hbefore
      rw [List.length_map] at hhit
      refine ⟨_, by rw [List.map_cons, List.map_append, List.map_cons, hpartner]; exact hhit, ?_⟩
      rw [hpairs]
      refine List.Forall₂.cons ⟨rfl, ?_⟩ (List.forall₂_map_left_iff.mpr (hstands.imp ?_))
      · rw [List.getElem?_append_right (Nat.le_refl _), Nat.sub_self, List.getElem?_cons_zero]
      · exact fun q pair hstands => ⟨hstands.1, (getElem?_after before rest partner q.2).trans hstands.2⟩

theorem pairs_sublist (ls ps : List (Node α)) : ((pairs ls ps).map Prod.fst).Sublist (ls.map Node.id) := by
  induction ls generalizing ps with
  | nil => exact List.Sublist.refl []
  | cons l ls ih =>
    rw [pairs]
    split
    · exact (ih _).cons_cons l.id
    · exact (ih ps).cons l.id

/-- The pairs are told by the ids and the operations of the logical nodes. -/
theorem pairs_congr (h : ls'.map (fun n => (n.id, n.operation)) = ls.map (fun n => (n.id, n.operation)))
    (ps : List (Node α)) : pairs ls' ps = pairs ls ps := by
  induction ls generalizing ls' ps with
  | nil =>
    rw [List.map_nil, List.map_eq_nil_iff] at h
    rw [h]
  | cons l ls ih =>
    obtain ⟨l', rest', rfl, hl, hrest⟩ := List.map_eq_cons_iff.mp h
    rw [Prod.mk.injEq] at hl
    rw [pairs, pairs, hl.1, hl.2]
    split
    · rw [ih hrest]
    · exact ih hrest ps

/-- Nodes with the same operations are matched one by one. -/
theorem pairs_same (h : ls.map Node.operation = ps.map Node.operation) : pairs ls ps = (ls.map Node.id).zip ps := by
  induction ls generalizing ps with
  | nil => rfl
  | cons l ls ih =>
    obtain ⟨p, ps', rfl, hp, hps⟩ := List.map_eq_cons_iff.mp h.symm
    have hnext : nextMatch? l.operation (p :: ps') = some (p, ps') := by
      rw [nextMatch?, hp, beq_self_eq_true, if_pos rfl]
    rw [pairs, hnext]
    exact congrArg (List.cons (l.id, p)) (ih hps.symm)

/-! ## Cross-referenced plans -/

theorem nodup_pairs (hids : (ls.map Node.id).Nodup) (ps : List (Node α)) : ((pairs ls ps).map Prod.fst).Nodup :=
  hids.sublist (pairs_sublist ls ps)

variable {matched : List (Nat × Nat)} {q : Nat × Nat} {i : Nat}

/-- A node that is matched is given its partner. -/
theorem lookup_matched (hids : (ls.map Node.id).Nodup) (hstands : List.Forall₂ (Stands ls ps) matched (pairs ls ps))
    (hq : q ∈ matched) (hl : ls[q.1]? = some l) (hp : ps[q.2]? = some p) : (pairs ls ps).lookup l.id = some p := by
  obtain ⟨⟨k, hk⟩, rfl⟩ := List.mem_iff_get.mp hq
  have hlt : k < (pairs ls ps).length := hstands.length_eq ▸ hk
  obtain ⟨hid, hpartner⟩ := hstands.get hk hlt
  rw [List.getElem?_map, hl, Option.map_some, Option.some.injEq] at hid
  rw [hp, Option.some.injEq] at hpartner
  refine Tree.lookup_of_mem (nodup_pairs hids ps) ?_
  rw [hid, hpartner]
  exact List.get_mem _ _

/-- A node that is not matched is given none. -/
theorem lookup_unmatched (hids : (ls.map Node.id).Nodup) (hstands : List.Forall₂ (Stands ls ps) matched (pairs ls ps))
    (hfree : ∀ q ∈ matched, q.1 ≠ i) (hl : ls[i]? = some l) : (pairs ls ps).lookup l.id = none := by
  rw [List.lookup_eq_none_iff]
  intro pair hpair
  refine bne_iff_ne.mpr (fun he => ?_)
  obtain ⟨⟨k, hk⟩, rfl⟩ := List.mem_iff_get.mp hpair
  have hlt : k < matched.length := hstands.length_eq ▸ hk
  obtain ⟨hid, -⟩ := hstands.get hlt hk
  have hsame : (ls.map Node.id)[i]? = (ls.map Node.id)[(matched.get ⟨k, hlt⟩).1]? := by
    rw [hid, List.getElem?_map, hl, Option.map_some, he]
  have hi : i < (ls.map Node.id).length := by
    rw [List.length_map]
    exact (List.getElem?_eq_some_iff.mp hl).1
  exact hfree _ (List.get_mem _ _) ((List.getElem?_inj hi hids).mp hsame).symm

/-- Two lists with the same operations are matched place by place. -/
theorem matched_same (hids : (ls.map Node.id).Nodup) (hids' : (ps.map Node.id).Nodup)
    (hstands : List.Forall₂ (Stands ls ps) matched (pairs ls ps)) (hsame : ls.map Node.operation = ps.map Node.operation) :
    matched = (List.range ls.length).map (fun i => (i, i)) := by
  have hlength : ls.length = ps.length := by
    rw [← List.length_map Node.operation, hsame, List.length_map]
  rw [pairs_same hsame] at hstands
  have hcount : matched.length = ls.length := by
    rw [hstands.length_eq, List.length_zip, List.length_map, ← hlength, Nat.min_self]
  refine List.ext_getElem (by rw [hcount, List.length_map, List.length_range]) (fun k hk _ => ?_)
  have hkl : k < ls.length := hcount ▸ hk
  have hkp : k < ps.length := hlength ▸ hkl
  obtain ⟨hid, hpartner⟩ := hstands.get hk (hstands.length_eq ▸ hk)
  rw [List.get_eq_getElem, List.get_eq_getElem, List.getElem_zip] at hid hpartner
  have hfst : matched[k].1 = k := by
    refine ((List.getElem?_inj ?_ hids).mp ?_).symm
    · rw [List.length_map]
      exact hkl
    · rw [hid, List.getElem?_eq_getElem]
  have hsnd : matched[k].2 = k := by
    refine ((List.getElem?_inj ?_ hids').mp ?_).symm
    · rw [List.length_map]
      exact hkp
    · rw [List.getElem?_map, List.getElem?_map, hpartner, List.getElem?_eq_getElem hkp]
  rw [List.getElem_map, List.getElem_range]
  exact Prod.ext hfst hsnd

end CrossReference

/-- A node but for what a cross reference writes. -/
def Node.unpaired {α : Type} (n : Node α) : Node α := { n with engine := .unknown, recordCount := none }

/-- What a node tells about the row it stands for. -/
def Node.row {α : Type} (n : Node α) : NodeId × Nat × String := (n.id, n.rowNumber, n.operation)

namespace Plan

open CrossReference DaxPlan.Tree

variable {α : Type} {logical physical : Plan α} {matched : List (Nat × Nat)}

theorem crossReference_agrees (logical physical : Plan α) :
    Agrees Node.unpaired logical.tree (logical.crossReference physical).1.tree := by
  refine Agrees.foldl _ (fun t pair => ?_) _ _
  exact Agrees.modify t pair.1 _ (fun _ => rfl)

/-- What a cross reference makes of the node at a place. -/
theorem get?_crossReference (h : logical.Walked) (physical : Plan α) (i : NodeId) :
    (logical.crossReference physical).1.tree.get? i =
      (logical.tree.get? i).map (fun n => ((pairs logical.nodes physical.nodes).lookup i).elim n (fun p => adopt p n)) :=
  get?_foldl_modify_pairs adopt _ (nodup_pairs h.nodup_ids _) logical.tree i

/-- What a cross reference makes of the nodes in order. -/
theorem nodes_crossReference (h : logical.Walked) (physical : Plan α) :
    (logical.crossReference physical).1.nodes =
      logical.nodes.map (fun n => ((pairs logical.nodes physical.nodes).lookup n.id).elim n (fun p => adopt p n)) := by
  have hget := get?_crossReference h physical
  generalize pairs logical.nodes physical.nodes = found at hget ⊢
  change logical.allNodes.filterMap (logical.crossReference physical).1.tree.get? =
    (logical.allNodes.filterMap logical.tree.get?).map _
  rw [List.map_filterMap]
  refine List.filterMap_congr (fun i _ => ?_)
  rw [hget i]
  cases hn : logical.tree.get? i with
  | none => rfl
  | some n => rw [Option.map_some, Option.map_some, h.spanning.ids i n hn]

theorem crossReference_count (hstands : List.Forall₂ (Stands logical.nodes physical.nodes) matched
    (pairs logical.nodes physical.nodes)) : (logical.crossReference physical).2 = matched.length :=
  hstands.length_eq.symm

/-- A cross reference that is repeated finds the same partners and writes what is there already. -/
theorem crossReference_twice (h : logical.Walked) (physical : Plan α) :
    (logical.crossReference physical).1.crossReference physical = logical.crossReference physical := by
  have hwalked : (logical.crossReference physical).1.Walked :=
    h.of_agrees ((crossReference_agrees logical physical).view Node.links (fun _ => rfl)) rfl
  have hsame := (crossReference_agrees logical physical).view (fun n => (n.id, n.operation)) (fun _ => rfl)
  have hpairs : pairs (logical.crossReference physical).1.nodes physical.nodes = pairs logical.nodes physical.nodes :=
    pairs_congr (nodesAt_congr hsame logical.allNodes) physical.nodes
  have htree : ((logical.crossReference physical).1.crossReference physical).1.tree =
      (logical.crossReference physical).1.tree := by
    refine ext_get? (crossReference_agrees _ physical).1 (fun i => ?_)
    rw [get?_crossReference hwalked, hpairs, get?_crossReference h, Option.map_map]
    refine congrArg (fun f => (logical.tree.get? i).map f) (funext fun n => ?_)
    cases (pairs logical.nodes physical.nodes).lookup i <;> rfl
  have hcount : ((logical.crossReference physical).1.crossReference physical).2 = (logical.crossReference physical).2 :=
    congrArg List.length hpairs
  have hplan : ∀ p : Plan α, (p.crossReference physical).1 = { p with tree := (p.crossReference physical).1.tree } :=
    fun _ => rfl
  refine Prod.ext ?_ hcount
  rw [hplan, htree]

/-- A logical and a physical plan of the same rows have the same rows at the same places. -/
theorem same_rows [Quantity α] {enricher : Enricher} {rows : List Row} {events : List (Event α)}
    {resolver resolver' : Option Resolver} {correlationId correlationId' : String} {total : α}
    (hl : Enricher.logical rows resolver correlationId = .ok logical)
    (hp : enricher.physical rows events resolver' correlationId' total = .ok physical) :
    physical.nodes.map Node.row = logical.nodes.map Node.row := by
  obtain ⟨plan, hplan, -, hall, hlogical⟩ := Enrichment.logical_spec (α := α) rows resolver correlationId
  rw [hl, Except.ok.injEq] at hplan
  rw [← hplan] at hall hlogical
  have henriched := Enrichment.physical_enriched hp
  have hrow := ((Enrichment.namedTree_agrees rows resolver').view Node.row (fun _ => rfl)).trans
    (henriched.agrees Node.row (fun _ _ => rfl) (fun _ => rfl))
  have hallSame : physical.allNodes = logical.allNodes := by
    rw [henriched.allNodes, hall]
    exact preOrder_congr ((Enrichment.namedTree_agrees rows resolver').view Node.children (fun _ => rfl))
  rw [nodes, nodes, hallSame]
  exact nodesAt_congr ((hlogical.view Node.row (fun _ => rfl)).symm.trans hrow) logical.allNodes

/-- A cross reference is the greedy matching of the operations of two plans. The nodes matched get the engine and the record
count of their partners, and nothing else is changed; to repeat it changes nothing; and of plans of the same rows each node is
matched with the one of its own row. -/
theorem crossReference_matches [Quantity α] (logical physical : Plan α) (h : logical.Walked) :
    ∃ matched : List (Nat × Nat),
      GreedyMatching (logical.nodes.map Node.operation) (physical.nodes.map Node.operation) matched ∧
      (logical.crossReference physical).2 = matched.length ∧
      (∀ q ∈ matched, ∀ l p, logical.nodes[q.1]? = some l → physical.nodes[q.2]? = some p →
        (logical.crossReference physical).1.nodes[q.1]? =
          some { l with engine := p.engine, recordCount := p.recordCount }) ∧
      (∀ i : Nat, (∀ q ∈ matched, q.1 ≠ i) → (logical.crossReference physical).1.nodes[i]? = logical.nodes[i]?) ∧
      (∃ t, (logical.crossReference physical).1 = { logical with tree := t } ∧ Agrees Node.unpaired logical.tree t) ∧
      (logical.crossReference physical).1.crossReference physical = logical.crossReference physical ∧
      ∀ (enricher : Enricher) rows events resolver resolver' correlationId correlationId' total,
        Enricher.logical rows resolver correlationId = .ok logical →
        enricher.physical rows events resolver' correlationId' total = .ok physical →
        matched = (List.range logical.nodeCount).map (fun i => (i, i)) ∧
          physical.nodes.map (fun n => (n.id, n.rowNumber)) = logical.nodes.map (fun n => (n.id, n.rowNumber)) := by
  obtain ⟨matched, hgreedy, hstands⟩ := pairs_greedy logical.nodes physical.nodes
  refine ⟨matched, hgreedy, crossReference_count hstands, ?matched, ?unmatched, ?frame, crossReference_twice h physical, ?same⟩
  case matched =>
    intro q hq l p hl hp
    rw [nodes_crossReference h, List.getElem?_map, hl, Option.map_some, lookup_matched h.nodup_ids hstands hq hl hp]
    rfl
  case unmatched =>
    intro i hfree
    rw [nodes_crossReference h, List.getElem?_map]
    cases hl : logical.nodes[i]? with
    | none => rfl
    | some l =>
      rw [Option.map_some, lookup_unmatched h.nodup_ids hstands hfree hl]
      rfl
  case frame => exact ⟨_, rfl, crossReference_agrees logical physical⟩
  case same =>
    intro enricher rows events resolver resolver' correlationId correlationId' total hl hp
    have hrows := same_rows hl hp
    have hoperations := congrArg (List.map (fun row => row.2.2)) hrows
    have hids := congrArg (List.map (fun row => (row.1, row.2.1))) hrows
    rw [List.map_map, List.map_map] at hoperations hids
    have hcount : logical.nodes.length = logical.nodeCount := by
      rw [← List.length_map Node.id, h.map_id]
      rfl
    refine ⟨?_, hids⟩
    rw [← hcount]
    exact matched_same h.nodup_ids (Enrichment.physical_enriched hp).walked.nodup_ids hstands hoperations.symm

/-- Three rows, two of them with the same operation, make a logical and a physical plan, and all their nodes are matched. -/
theorem crossReference_matches_rows :
    let row (level : Nat) (operation : String) : Row := ⟨1, level, operation, "", .unknown, none, none⟩
    let rows := [row 0 "AddColumns", row 1 "Scan_Vertipaq", row 1 "AddColumns"]
    ∃ logical physical : Plan Rat, Enricher.logical rows none "" = .ok logical ∧
      ({} : Enricher).physical rows [] none "" 0 = .ok physical ∧ logical.Walked ∧
      (logical.crossReference physical).2 = logical.nodeCount ∧
      (logical.crossReference physical).1.crossReference physical = logical.crossReference physical := by
  intro row rows
  obtain ⟨logical, hlogical, hwalked, -⟩ := Enrichment.logical_spec (α := Rat) rows none ""
  obtain ⟨physical, hphysical, -⟩ := Enrichment.physical_spec {} rows ([] : List (Event Rat)) none "" 0 rfl
  obtain ⟨matched, -, hcount, -, -, -, htwice, hsame⟩ := crossReference_matches logical physical hwalked
  refine ⟨logical, physical, hlogical, hphysical, hwalked, ?_, htwice⟩
  rw [hcount, (hsame {} rows [] none none "" "" 0 hlogical hphysical).1, List.length_map, List.length_range]

end Plan

end DaxPlan
