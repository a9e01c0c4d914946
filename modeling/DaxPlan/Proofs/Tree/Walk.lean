import DaxPlan.Proofs.Layout.Frame
import DaxPlan.Proofs.Outline.TextualOrder
import DaxPlan.Proofs.Tree.Visible
import Mathlib.Logic.Relation

/-!
# The visible walk and the whole walk

A walk of what is visible goes down the children lists and stops at collapsed nodes. Seen from below it is the whole walk without
the nodes that have something collapsed above them, where "above" follows the parent links (`visible_walk_filtered`). What the
walk leaves out lies below collapsed nodes that it visits, each node below one of them only: the whole walk is the visible one
together with what its nodes hide (`Spanning.preOrder_perm_visible`).
-/

namespace DaxPlan.Tree

variable {α : Type} {t : Tree α} {i j p : NodeId} {n : Node α}

/-- What a node hides: all that lies below it if it is collapsed. -/
def hiddenBelow (t : Tree α) (id : NodeId) : List NodeId := if t.collapsedAt id then t.descendants id else []

/-! ## Seen from below -/

/-- What is found going up from a node is linked to it by parents. -/
theorem transGen_of_mem_ancestorsUpTo {height : Nat} (hj : j ∈ t.ancestorsUpTo height i) :
    Relation.TransGen (fun child parent => t.parent? child = some parent) i j := by
  induction height generalizing i with
  | zero => exact absurd hj List.not_mem_nil
  | succ height ih =>
    rw [ancestorsUpTo] at hj
    split at hj
    · exact absurd hj List.not_mem_nil
    · rename_i p hp
      split at hj
      · rcases List.mem_cons.mp hj with rfl | hj
        · exact Relation.TransGen.single hp
        · exact Relation.TransGen.head hp (ih hj)
      · exact absurd hj List.not_mem_nil

namespace Spanning

/-- Above a node with a parent lies the parent, and what lies above the parent. -/
theorem ancestors_of_parent (h : t.Spanning) (hl : t.Linked) (hp : t.parent? i = some p) :
    t.ancestors i = p :: t.ancestors p := by
  obtain ⟨n, hn, hparent⟩ := Option.bind_eq_some_iff.mp hp
  obtain ⟨m, hm, hi⟩ := (hl i n p hn).mp hparent
  exact h.ancestors_child hl hm hi

/-- Going up from a node comes to all that parent links lead to: the bound on the way does not show. -/
theorem mem_ancestors_iff (h : t.Spanning) (hl : t.Linked) :
    j ∈ t.ancestors i ↔ Relation.TransGen (fun child parent => t.parent? child = some parent) i j := by
  refine ⟨transGen_of_mem_ancestorsUpTo, fun hup => ?_⟩
  induction hup using Relation.TransGen.head_induction_on with
  | single hp =>
    rw [h.ancestors_of_parent hl hp]
    exact List.mem_cons_self
  | head hp _ ih =>
    rw [h.ancestors_of_parent hl hp]
    exact List.mem_cons_of_mem _ ih

/-- A parent comes before its children in the visible walk. -/
theorem visible_parent_before (h : t.Spanning) (hl : t.Linked) {a b : List NodeId} (hab : t.visiblePreOrder = a ++ i :: b)
    (hp : t.parent? i = some p) : p ∈ a := by
  have hi : i ∈ t.visiblePreOrder := hab ▸ List.mem_append_right a List.mem_cons_self
  have hup : p ∈ t.ancestors i := by
    rw [h.ancestors_of_parent hl hp]
    exact List.mem_cons_self
  have hvisible := h.visible_above hl hi hup
  obtain ⟨n, hn, hparent⟩ := Option.bind_eq_some_iff.mp hp
  obtain ⟨m, hm, hchild⟩ := (hl i n p hn).mp hparent
  -- the parent is open, or its child would be hidden
  have hopen := ((h.mem_visiblePreOrder_iff hl).mp hi).2 p hup
  rw [collapsedAt_eq hm] at hopen
  have hshown : i ∈ m.visibleChildren := by
    rw [Node.visibleChildren, hopen]
    exact hchild
  have hwalk := h.visiblePreOrder_spec.1
  have honce := h.nodup_visiblePreOrder
  rw [hab] at hwalk honce hvisible
  exact hwalk.before_next honce hvisible hm hshown

/-! ## What is hidden -/

/-- A subtree: the top, and the subtrees of its children. -/
theorem subtree_eq (h : t.Spanning) (hn : t.get? i = some n) : t.subtree i = i :: n.children.flatMap t.subtree := by
  obtain ⟨hwalk, hblock⟩ := h.subtree_spec (lt_size_iff.mpr ⟨n, hn⟩)
  exact hwalk.walkFrom_eq_cons (hblock.length_le.trans_eq h.length_preOrder) hn

theorem descendants_eq (h : t.Spanning) (hn : t.get? i = some n) : t.descendants i = n.children.flatMap t.subtree := by
  rw [descendants, h.subtree_eq hn, List.tail_cons]

/-- Below a node lie the nodes that it is above. -/
theorem descendants_perm (h : t.Spanning) (hl : t.Linked) (hi : i < t.size) :
    (t.descendants i).Perm (t.preOrder.filter (fun j => i ∈ t.ancestors j)) := by
  have hbelow : (t.descendants i).Nodup := (h.nodup_subtree hi).sublist (List.tail_sublist _)
  rw [List.perm_ext_iff_of_nodup hbelow (h.once.filter _)]
  intro j
  rw [h.mem_descendants_iff hl hi, List.mem_filter, decide_eq_true_iff, h.mem_preOrder_iff]
  exact ⟨fun hj => ⟨lt_size_of_mem_ancestors hj, hj⟩, fun hj => hj.2⟩

/-- A search from the children of a node that goes on with the last child first finds what lies below the node. -/
theorem descendants_searched (h : t.Spanning) (hn : t.get? i = some n) :
    ∃ found, t.Visits (fun n => n.children.reverse) n.children.reverse found ∧ found.Perm (t.descendants i) := by
  obtain ⟨m, below, hm, hbelow, hwalk⟩ := Visits.singleton_iff.mp (h.subtree_spec (lt_size_iff.mpr ⟨n, hn⟩)).1
  rw [hn, Option.some.injEq] at hm
  subst hm
  obtain ⟨found, hperm, hfound⟩ := hwalk.reversed
  rw [descendants, hbelow, List.tail_cons]
  exact ⟨found, hfound, hperm⟩

/-- A subtree is what is visible of it, and what the nodes visible in it hide. -/
theorem subtree_perm_visible (h : t.Spanning) (hi : i < t.size) :
    (t.subtree i).Perm (t.visibleSubtree i ++ (t.visibleSubtree i).flatMap t.hiddenBelow) := by
  refine h.upward (P := fun i => (t.subtree i).Perm (t.visibleSubtree i ++ (t.visibleSubtree i).flatMap t.hiddenBelow))
    (fun i n hn hchildren => ?_) hi
  rw [h.subtree_eq hn, h.visibleSubtree_eq hn, List.flatMap_cons, hiddenBelow, collapsedAt_eq hn, h.descendants_eq hn]
  -- a collapsed node shows no child and hides all below it, an open one hides nothing of its own
  cases hcollapsed : n.isCollapsed with
  | true =>
    rw [Node.visibleChildren, hcollapsed]
    simp
  | false =>
    have hshown : n.visibleChildren = n.children := by
      rw [Node.visibleChildren, hcollapsed]
      rfl
    rw [hshown] at hchildren ⊢
    refine List.Perm.cons i ?_
    rw [if_neg Bool.false_ne_true, List.nil_append, List.flatMap_assoc]
    exact (List.Perm.flatMap_left _ hchildren).trans (List.flatMap_append_perm _ _ _).symm

/-- The whole walk is the visible one together with what its nodes hide. -/
theorem preOrder_perm_visible (h : t.Spanning) :
    t.preOrder.Perm (t.visiblePreOrder ++ t.visiblePreOrder.flatMap t.hiddenBelow) := by
  cases hr : t.root with
  | none => simp [preOrder, visiblePreOrder, hr]
  | some r =>
    rw [visiblePreOrder_root hr, show t.preOrder = t.subtree r by simp [preOrder, hr]]
    exact h.subtree_perm_visible (h.root_lt_size hr)

end Spanning

/-! ## The visible walk -/

/-- The visible walk is the whole walk without the nodes that have something collapsed above them, in the same order. Above a
node lies all that parent links lead to. Both walks are what a traversal with a stack visits, and nothing else. So the visible
walk meets no node twice, has all that lies above a node in it, and comes to a parent before it comes to a child. -/
theorem visible_walk_filtered (h : t.Spanning) (hl : t.Linked) :
    t.visiblePreOrder = t.preOrder.filter (fun i => !(t.ancestors i).any t.collapsedAt) ∧
      (∀ i j, j ∈ t.ancestors i ↔ Relation.TransGen (fun child parent => t.parent? child = some parent) i j) ∧
      (∀ v, t.Visits Node.visibleChildren t.root.toList v ↔ v = t.visiblePreOrder) ∧
      (∀ v, t.Visits Node.children t.root.toList v ↔ v = t.preOrder) ∧
      t.visiblePreOrder.Nodup ∧
      (∀ i ∈ t.visiblePreOrder, ∀ j ∈ t.ancestors i, j ∈ t.visiblePreOrder) ∧
      ∀ a i b p, t.visiblePreOrder = a ++ i :: b → t.parent? i = some p → p ∈ a := by
  have hvisible := h.visiblePreOrder_spec.1
  refine ⟨?_, fun i j => h.mem_ancestors_iff hl, fun v => ⟨fun hv => hv.unique hvisible, fun hv => hv ▸ hvisible⟩,
    fun v => ⟨fun hv => hv.unique h.traversal, fun hv => hv ▸ h.traversal⟩, h.nodup_visiblePreOrder,
    fun i hi j hj => h.visible_above hl hi hj, fun a i b p hab hp => h.visible_parent_before hl hab hp⟩
  rw [h.visiblePreOrder_eq_filter hl]
  simp only [List.not_any_eq_all_not]

/-- A chain of four nodes and a leaf beside it; the second and the third of the chain are collapsed, and the walk stops at the
second. -/
theorem visible_walk_filtered_nested :
    let row (level : Nat) : Row := ⟨1, level, "", "", .unknown, none, none⟩
    let t : Tree Rat := ((Tree.ofRows ([0, 1, 2, 3, 1].map row)).setCollapsed 1 true).setCollapsed 2 true
    t.Spanning ∧ t.Linked ∧ t.preOrder = [0, 1, 2, 3, 4] ∧ t.visiblePreOrder = [0, 1, 4] := by
  intro row t
  have h : t.WellFormed := (Outline.ofRows_wellFormed _).of_agrees
    (((Layout.setCollapsed_agrees _ 1 true).trans (Layout.setCollapsed_agrees _ 2 true)).view (fun n => (n.links, n.depth))
      (fun _ => rfl))
  have hfilter := (visible_walk_filtered h.toSpanning h.linked).1
  refine ⟨h.toSpanning, h.linked, by decide, ?_⟩
  rw [hfilter]
  decide +kernel

end DaxPlan.Tree
