import DaxPlan.Proofs.CrossReference.Matching
import DaxPlan.Proofs.Strict.Access

/-!
# Matching, strictly

A logical plan is matched with a physical one by a cursor into the list of physical nodes. The search for the next match starts at
the slice that the cursor cuts off, and a match moves the cursor behind it. The cursor never leaves the list, and what lies ahead
of it is what is left to match (`matchFrom_eq`).
-/

namespace DaxPlan.Strict

open DaxPlan.Tree CrossReference

variable {α : Type} {t : Tree α}

/-- The first of the nodes with some ids that has an operation: how many come before it. -/
def position (t : Tree α) (operation : String) : List NodeId → Option (Option Nat)
  | [] => some none
  | id :: ids => do
    let n ← t.get? id
    if n.operation == operation then return some 0 else (position t operation ids).map (·.map (· + 1))

/-- Matches the logical nodes with some ids with the physical ones from a cursor on, and counts the matches. -/
def matchFrom (physical : Plan α) : List NodeId → Nat → Tree α × Nat → Option (Tree α × Nat)
  | [], _, result => some result
  | id :: ids, cursor, (t, matched) =>
    match t.get? id with
    | none => matchFrom physical ids cursor (t, matched)
    | some n => do
      let ahead ← sliceFrom physical.allNodes cursor
      match ← position physical.tree n.operation ahead with
      | none => matchFrom physical ids cursor (t, matched)
      | some offset =>
        let place ← physical.allNodes[cursor + offset]?
        let partner ← physical.tree.get? place
        matchFrom physical ids (cursor + offset + 1) (t.modify id (adopt partner), matched + 1)

def crossReference (logical physical : Plan α) : Option (Plan α × Nat) :=
  (matchFrom physical logical.allNodes 0 (logical.tree, 0)).map (fun result => (logical.mapTree (fun _ => result.1), result.2))

/-- The search goes as far as the first match, and stops there. -/
theorem position_eq (operation : String) {ids : List NodeId} (h : ∀ i ∈ ids, i < t.size) :
    (position t operation ids = some none ∧ nextMatch? operation (t.nodesAt ids) = none) ∨
    ∃ above id n below, ids = above ++ id :: below ∧ t.get? id = some n ∧
      position t operation ids = some (some above.length) ∧ nextMatch? operation (t.nodesAt ids) = some (n, t.nodesAt below) := by
  induction ids with
  | nil => exact Or.inl ⟨rfl, rfl⟩
  | cons i ids ih =>
    obtain ⟨m, hm⟩ := lt_size_iff.mp (h i List.mem_cons_self)
    rw [position, then_eq hm, nodesAt_cons hm, nextMatch?]
    by_cases hop : (m.operation == operation) = true
    · rw [if_pos hop, if_pos hop]
      exact Or.inr ⟨[], i, m, ids, rfl, hm, rfl, rfl⟩
    · rw [if_neg hop, if_neg hop]
      rcases ih (fun j hj => h j (List.mem_cons_of_mem i hj)) with
        ⟨hnone, hnext⟩ | ⟨above, id, n, below, rfl, hn, hsome, hnext⟩
      · exact Or.inl ⟨by rw [hnone]; rfl, hnext⟩
      · exact Or.inr ⟨i :: above, id, n, below, rfl, hn, by rw [hsome]; rfl, hnext⟩

/-- The cursor never leaves the list of physical nodes, and what lies ahead of it are the nodes that are left to match. -/
theorem matchFrom_eq {physical : Plan α} (hp : physical.Walked) {ids : List NodeId} {cursor : Nat} {matched : Nat}
    (hcursor : cursor ≤ physical.allNodes.length) (ht : ∀ i n, t.get? i = some n → n.id = i) :
    matchFrom physical ids cursor (t, matched) =
      some ((pairs (t.nodesAt ids) (physical.tree.nodesAt (physical.allNodes.drop cursor))).foldl
          (fun t pair => t.modify pair.1 (adopt pair.2)) t,
        matched + (pairs (t.nodesAt ids) (physical.tree.nodesAt (physical.allNodes.drop cursor))).length) := by
  induction ids generalizing cursor t matched with
  | nil => rfl
  | cons id ids ih =>
    cases hn : t.get? id with
    | none =>
      have hskip : t.nodesAt (id :: ids) = t.nodesAt ids := List.filterMap_cons_none hn
      rw [matchFrom, hn, hskip]
      exact ih hcursor ht
    | some n =>
      have hahead : ∀ i ∈ physical.allNodes.drop cursor, i < physical.tree.size :=
        fun i hi => hp.spanning.lt_size_of_mem (hp.allNodes ▸ List.mem_of_mem_drop hi)
      rw [matchFrom, hn, nodesAt_cons hn, pairs]
      dsimp only
      rw [then_eq (sliceFrom_eq hcursor)]
      rcases position_eq n.operation hahead with ⟨hnone, hnext⟩ | ⟨above, place, partner, below, hsplit, hm, hsome, hnext⟩
      · rw [then_eq hnone, hnext]
        exact ih hcursor ht
      · have hplace : physical.allNodes[cursor + above.length]? = some place := by
          rw [← List.getElem?_drop, hsplit, List.getElem?_append_right (Nat.le_refl _), Nat.sub_self]
          rfl
        have hbelow : physical.allNodes.drop (cursor + above.length + 1) = below := by
          rw [Nat.add_assoc, ← List.drop_drop, hsplit, List.drop_append]
          simp
        have hnext' : cursor + above.length + 1 ≤ physical.allNodes.length := (List.getElem?_eq_some_iff.mp hplace).1
        -- What is adopted is no operation, so the nodes left are matched as before.
        have hsame : ∀ ps, pairs ((t.modify id (adopt partner)).nodesAt ids) ps = pairs (t.nodesAt ids) ps :=
          pairs_congr (nodesAt_congr (Agrees.modify t id (adopt partner) (fun _ => rfl)) ids)
        rw [then_eq hsome, hnext]
        dsimp only
        rw [then_eq hplace, then_eq hm, ih hnext' (ids_modify ht id (adopt partner) (fun _ => rfl)), hbelow, hsame, ht id n hn,
          List.foldl_cons, List.length_cons]
        congr 2
        omega

theorem crossReference_eq {logical physical : Plan α} (h : logical.Walked) (hp : physical.Walked) :
    crossReference logical physical = some (logical.crossReference physical) := by
  rw [crossReference, matchFrom_eq hp (Nat.zero_le _) h.spanning.ids, List.drop_zero, Nat.zero_add]
  rfl

end DaxPlan.Strict
