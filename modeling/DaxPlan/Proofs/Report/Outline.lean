import DaxPlan.Proofs.Enrichment.Passes
import DaxPlan.Proofs.Tree.Walk
import DaxPlan.Report

/-!
# What the outline of a report accounts for

The outline has a line for each visible node. A line of a folded node tells how many nodes are hidden below it. These are all
nodes below it, whatever is folded among them, and a node is hidden below one visible folded node only: so the lines and what they
tell add up to the nodes of the plan (`outline_accounts`).
-/

namespace DaxPlan.Report

open DaxPlan.Tree

variable {α : Type} {t : Tree α} {i : NodeId} {n : Node α} {k : Nat}

/-! ## Lines -/

/-- What a line tells of: the nodes below its node if it has a mark. -/
def OutlineLine.below (t : Tree α) (line : OutlineLine α) : List NodeId :=
  if line.hidden.isSome then t.descendants line.node.id else []

theorem suffix_some (text : String) : suffix (some text) = " " ++ text := rfl

/-- The mark of hidden nodes, if there is one, stands at the end of a line, in front of the number of issues; what stands before it
is told by the node. -/
theorem text_mark [QuantityText α] (n : Node α) :
    ∃ front, OutlineLine.text ⟨n, none⟩ = front ++ (if n.issues.isEmpty then "" else " !" ++ toString n.issues.length) ∧
      ∀ hidden, OutlineLine.text ⟨n, some hidden⟩ = front ++ (" [+" ++ toString hidden ++ " hidden]") ++
        (if n.issues.isEmpty then "" else " !" ++ toString n.issues.length) := by
  have hissues : suffix (if n.issues.isEmpty then none else some s!"!{n.issues.length}") =
      if n.issues.isEmpty then "" else " !" ++ toString n.issues.length := by
    split
    · rfl
    · rw [suffix_some, ← String.append_assoc]
      rfl
  have hmark : ∀ hidden : Nat, suffix (some s!"[+{hidden} hidden]") = " [+" ++ toString hidden ++ " hidden]" := fun hidden => by
    rw [suffix_some, ← String.append_assoc, ← String.append_assoc]
    rfl
  rw [← hissues]
  refine ⟨_, congrArg (· ++ _) String.append_empty, fun hidden => ?_⟩
  rw [← hmark]
  rfl

/-- The text of a report has the outline below its heading, indented by the levels. -/
theorem lines_outline [Quantity α] [QuantityText α] (r : Report α) :
    ∃ before after, r.lines = before ++ ["", "Plan:"] ++ (outline r.plan.tree).map (fun line =>
      "  " ++ String.ofList (List.replicate (2 * line.node.depth) ' ') ++ line.text) ++ after :=
  ⟨_, _, List.append_assoc _ _ _⟩

/-- A line has a mark just if its node is folded and no leaf. -/
theorem hidden_eq_some_iff : (outlineLine t n).hidden = some k ↔
    n.isCollapsed = true ∧ n.children ≠ [] ∧ k = (t.descendants n.id).length := by
  rw [outlineLine, Option.ite_none_right_eq_some, Bool.and_eq_true, Bool.not_eq_true', Node.isLeaf, List.isEmpty_eq_false_iff,
    Option.some.injEq, and_assoc, eq_comm (a := k)]

/-- A line tells of what its node hides. -/
theorem below_outlineLine (h : t.Spanning) (hn : t.get? n.id = some n) :
    (outlineLine t n).below t = t.hiddenBelow n.id := by
  rw [OutlineLine.below, hiddenBelow, collapsedAt_eq hn, outlineLine]
  cases n.isCollapsed with
  | false => simp
  | true =>
    cases hleaf : n.children with
    | nil => simp [Node.isLeaf, hleaf, h.descendants_eq hn]
    | cons c ids => simp [Node.isLeaf, hleaf]

/-! ## The outline -/

theorem outline_nodes (t : Tree α) : (outline t).map (·.node) = t.nodesAt t.visiblePreOrder := by
  rw [outline, List.map_map]
  exact List.map_id' _

/-- The lines stand for the visible nodes, in the order of the walk. -/
theorem outline_ids (h : t.Spanning) : (outline t).map (·.node.id) = t.visiblePreOrder := by
  rw [outline, List.map_map]
  exact h.map_id_nodesAt (fun _ hi => h.lt_size_of_visible hi)

theorem mem_outline (h : t.Spanning) {line : OutlineLine α} (hline : line ∈ outline t) :
    ∃ n, line = outlineLine t n ∧ n.id ∈ t.visiblePreOrder ∧ t.get? n.id = some n := by
  obtain ⟨n, hn, rfl⟩ := List.mem_map.mp hline
  obtain ⟨i, hi, hget⟩ := List.mem_filterMap.mp hn
  have hid : n.id = i := h.ids i n hget
  exact ⟨n, rfl, hid ▸ hi, hid ▸ hget⟩

/-- The lines tell together of what visible nodes hide. -/
theorem outline_below (h : t.Spanning) :
    (outline t).flatMap (·.below t) = t.visiblePreOrder.flatMap t.hiddenBelow := by
  rw [← outline_ids h, List.flatMap_map]
  refine List.flatMap_congr (fun line hline => ?_)
  obtain ⟨n, rfl, -, hn⟩ := mem_outline h hline
  exact below_outlineLine h hn

/-- The numbers that lines tell add up to what the lines tell of. -/
theorem total_hidden {lines : List (OutlineLine α)}
    (h : ∀ line ∈ lines, ∀ k, line.hidden = some k → k = (t.descendants line.node.id).length) :
    Number.total (lines.filterMap (·.hidden)) = (lines.flatMap (·.below t)).length := by
  induction lines with
  | nil => rfl
  | cons line lines ih =>
    obtain ⟨hline, hlines⟩ := List.forall_mem_cons.mp h
    rw [List.flatMap_cons, List.length_append, ← ih hlines, OutlineLine.below]
    cases hhidden : line.hidden with
    | none => simp [hhidden]
    | some k => simp [hhidden, ← hline k hhidden]

/-- The outline of a text report accounts for every node of the plan. It has one line for each visible node, in the order of the
visible walk. A line has the mark of hidden nodes just if its node is folded and no leaf; the mark tells the number of all nodes
below that node, which a search from its children finds. The nodes of the lines and those below the marked ones are the nodes of
the plan, each once, so the lines and the numbers in the marks add up to the number of nodes. -/
theorem outline_accounts [Quantity α] [QuantityText α] (r : Report α) (h : r.plan.Walked) (hl : r.plan.tree.Linked) :
    let t := r.plan.tree
    let lines := outline t
    (∃ before after, r.lines = before ++ ["", "Plan:"] ++ lines.map (fun line =>
      "  " ++ String.ofList (List.replicate (2 * line.node.depth) ' ') ++ line.text) ++ after) ∧
      (∀ n : Node α, ∃ front,
        OutlineLine.text ⟨n, none⟩ = front ++ (if n.issues.isEmpty then "" else " !" ++ toString n.issues.length) ∧
        ∀ hidden, OutlineLine.text ⟨n, some hidden⟩ = front ++ (" [+" ++ toString hidden ++ " hidden]") ++
          (if n.issues.isEmpty then "" else " !" ++ toString n.issues.length)) ∧
      lines.map (·.node) = t.nodesAt t.visiblePreOrder ∧ lines.map (·.node.id) = t.visiblePreOrder ∧
      (∀ line ∈ lines, ∀ k, line.hidden = some k ↔ line.node.isCollapsed = true ∧ line.node.children ≠ [] ∧
        k = r.plan.allNodes.countP (fun j => line.node.id ∈ t.ancestors j)) ∧
      (∀ line ∈ lines, ∀ k, line.hidden = some k →
        ∃ found, t.Visits (fun n => n.children.reverse) line.node.children.reverse found ∧ found.length = k) ∧
      (lines.map (·.node.id) ++ lines.flatMap (·.below t)).Perm r.plan.allNodes ∧
      lines.length + Number.total (lines.filterMap (·.hidden)) = r.plan.nodeCount := by
  intro t lines
  have hs : t.Spanning := h.spanning
  have hpartition : (lines.map (·.node.id) ++ lines.flatMap (·.below t)).Perm r.plan.allNodes := by
    rw [outline_ids hs, outline_below hs, h.allNodes]
    exact hs.preOrder_perm_visible.symm
  have hcount : ∀ line ∈ lines, ∀ k, line.hidden = some k → k = (t.descendants line.node.id).length := by
    intro line hline k hk
    obtain ⟨n, rfl, -, -⟩ := mem_outline hs hline
    exact (hidden_eq_some_iff.mp hk).2.2
  refine ⟨lines_outline r, text_mark, outline_nodes t, outline_ids hs, fun line hline k => ?_, fun line hline k hk => ?_,
    hpartition, ?_⟩
  · obtain ⟨n, rfl, -, hn⟩ := mem_outline hs hline
    have hnumber := (hs.descendants_perm hl (lt_size_iff.mpr ⟨n, hn⟩)).length_eq
    rw [← List.countP_eq_length_filter, ← h.allNodes] at hnumber
    exact hnumber ▸ hidden_eq_some_iff
  · obtain ⟨n, rfl, -, hn⟩ := mem_outline hs hline
    obtain ⟨found, hfound, hperm⟩ := hs.descendants_searched hn
    exact ⟨found, hfound, hperm.length_eq.trans (hcount _ hline k hk).symm⟩
  · have hlength := hpartition.length_eq
    rwa [List.length_append, List.length_map, ← total_hidden hcount] at hlength

/-- Two folded nodes, one below the other, and a folded leaf: the upper one hides three nodes, the leaf none. -/
theorem outline_accounts_nested :
    let row (level : Nat) : Row := ⟨1, level, "", "", .unknown, none, none⟩
    let t : Tree Rat := (((Tree.ofRows ([0, 1, 2, 3, 2, 1].map row)).setCollapsed 1 true).setCollapsed 2 true).setCollapsed 5 true
    let r : Report Rat := ⟨Plan.parsed .physical "" t, none, {}, none⟩
    r.plan.Walked ∧ r.plan.tree.Linked ∧ (outline t).map (·.node.id) = [0, 1, 5] ∧
      (outline t).map (·.hidden) = [none, some 3, none] ∧ (outline t).length + 3 = r.plan.nodeCount := by
  intro row t r
  have h : t.WellFormed := (Outline.ofRows_wellFormed _).of_agrees
    ((((Layout.setCollapsed_agrees _ 1 true).trans (Layout.setCollapsed_agrees _ 2 true)).trans
      (Layout.setCollapsed_agrees _ 5 true)).view (fun n => (n.links, n.depth)) (fun _ => rfl))
  have hwalked : r.plan.Walked := Plan.Walked.parsed h.toSpanning .physical ""
  have hnumbers : (outline t).filterMap (·.hidden) = [3] := by decide +kernel
  obtain ⟨-, -, -, hids, -, -, -, hcount⟩ := outline_accounts r hwalked h.linked
  have hsum : (outline t).length + Number.total ((outline t).filterMap (·.hidden)) = r.plan.nodeCount := hcount
  rw [hnumbers] at hsum
  exact ⟨hwalked, h.linked, hids.trans (by decide +kernel), by decide +kernel, hsum⟩

end DaxPlan.Report
