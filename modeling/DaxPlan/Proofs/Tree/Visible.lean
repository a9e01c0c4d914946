import DaxPlan.Layout.Footprint
import DaxPlan.Proofs.Tree.Ancestry

/-!
# What is visible, by the tree

A visible subtree is its top and, one after the other, the visible subtrees of the children that the top shows
(`Spanning.visibleSubtree_eq`). So what holds of a node once it holds of the children it shows holds of every node
(`Spanning.upward`), what visible nodes hand down to the children they show holds of every visible node once it holds of the root
(`Spanning.downward`), and the footprint of a node is the sum of those of the children it shows (`Spanning.footprint_eq`). Where
the parent links match, what is visible is told from below as well: it is what has nothing collapsed above it
(`Spanning.mem_visiblePreOrder_iff`).
-/

namespace DaxPlan.Tree

variable {α : Type} {t : Tree α} {i j c r : NodeId} {n m : Node α}

/-- What a traversal gives way to is named once if each node is visited once. -/
theorem Visits.nodup_next {next : Node α → List NodeId} {s v : List NodeId} (h : t.Visits next s v) (hv : v.Nodup) :
    (v.flatMap (t.nextAt next)).Nodup :=
  (List.nodup_append.mp (h.perm.nodup_iff.mp hv)).2.1

/-- A traversal visits the same nodes whenever it is made. -/
theorem Visits.unique {next : Node α → List NodeId} {s v w : List NodeId} (hv : t.Visits next s v) (hw : t.Visits next s w) :
    v = w := by
  rw [← hv.flatMap_walkFrom (Nat.le_max_left v.length w.length), hw.flatMap_walkFrom (Nat.le_max_right v.length w.length)]

theorem visibleChildren_of_ne_nil (h : n.visibleChildren ≠ []) : n.visibleChildren = n.children := by
  unfold Node.visibleChildren at h ⊢
  split at h
  · exact absurd rfl h
  · rename_i hflag
    rw [if_neg hflag]

theorem showsNoChildren_eq (hn : t.get? i = some n) : t.showsNoChildren i = n.visibleChildren.isEmpty := by
  rw [showsNoChildren, hn]
  rfl

/-- Whether the node at a place is collapsed. -/
def collapsedAt (t : Tree α) (id : NodeId) : Bool := (t.get? id).any Node.isCollapsed

theorem collapsedAt_eq (hn : t.get? i = some n) : t.collapsedAt i = n.isCollapsed := by
  rw [collapsedAt, hn]
  rfl

/-- A node lies strictly below another, and none between the two is collapsed. -/
def OpenBelow (t : Tree α) (i j : NodeId) : Prop :=
  j ∈ t.descendants i ∧ ∀ a ∈ t.ancestors j, i ∈ t.ancestors a → t.collapsedAt a = false

instance (t : Tree α) (i j : NodeId) : Decidable (t.OpenBelow i j) :=
  inferInstanceAs (Decidable (j ∈ t.descendants i ∧ ∀ a ∈ t.ancestors j, i ∈ t.ancestors a → t.collapsedAt a = false))

namespace Spanning

/-- A visible subtree: the top, and the visible subtrees of the children it shows. -/
theorem visibleSubtree_eq (h : t.Spanning) (hn : t.get? i = some n) :
    t.visibleSubtree i = i :: n.visibleChildren.flatMap t.visibleSubtree := by
  have hi : i < t.size := lt_size_iff.mpr ⟨n, hn⟩
  exact (h.visibleSubtree_spec hi).1.walkFrom_eq_cons (h.length_visibleSubtree_le hi) hn

theorem mem_visibleSubtree_self (h : t.Spanning) (hn : t.get? i = some n) : i ∈ t.visibleSubtree i := by
  rw [h.visibleSubtree_eq hn]
  exact List.mem_cons_self

/-- What holds of a node once it holds of the children it shows holds of every node. -/
theorem upward (h : t.Spanning) {P : NodeId → Prop}
    (step : ∀ i n, t.get? i = some n → (∀ c ∈ n.visibleChildren, P c) → P i) (hi : i < t.size) : P i := by
  -- a child has a smaller visible subtree
  induction hlen : (t.visibleSubtree i).length using Nat.strong_induction_on generalizing i with
  | _ k ih =>
    subst hlen
    obtain ⟨n, hn⟩ := lt_size_iff.mp hi
    refine step i n hn (fun c hc => ih _ ?_ (h.visibleChild_lt_size hn hc) rfl)
    have hle := (List.sublist_flatten_of_mem (List.mem_map_of_mem (f := t.visibleSubtree) hc)).length_le
    rw [h.visibleSubtree_eq hn, List.length_cons, List.flatMap_def]
    exact Nat.lt_succ_of_le hle

/-! ## The visible walk -/

theorem root_visible (h : t.Spanning) (hr : t.root = some r) : r ∈ t.visiblePreOrder :=
  h.visiblePreOrder_spec.1.pending_subset (by simp [hr])

/-- The children that a visible node shows are visible. -/
theorem visible_child (h : t.Spanning) (hi : i ∈ t.visiblePreOrder) (hn : t.get? i = some n) (hc : c ∈ n.visibleChildren) :
    c ∈ t.visiblePreOrder :=
  h.visiblePreOrder_spec.1.next_mem hi hn hc

/-- What holds of the root and is handed down by visible nodes to the children they show holds of every visible node. -/
theorem downward (h : t.Spanning) {P : NodeId → Prop} (root : ∀ r, t.root = some r → P r)
    (child : ∀ i n, i ∈ t.visiblePreOrder → t.get? i = some n → P i → ∀ c ∈ n.visibleChildren, P c) :
    ∀ i ∈ t.visiblePreOrder, P i := by
  have hboth : ∀ i ∈ t.visiblePreOrder, i ∈ t.visiblePreOrder ∧ P i := by
    refine h.visiblePreOrder_spec.1.downward (fun i hi => ?_) (fun i n hn hi c hc => ?_)
    · have hr : t.root = some i := Option.mem_toList.mp hi
      exact ⟨h.root_visible hr, root i hr⟩
    · exact ⟨h.visible_child hi.1 hn hc, child i n hi.1 hn hi.2 c hc⟩
  exact fun i hi => (hboth i hi).2

/-- A visible node shows a child once, and no other visible node shows it. -/
theorem shown_once (h : t.Spanning) : (t.visiblePreOrder.flatMap (t.nextAt Node.visibleChildren)).Nodup :=
  h.visiblePreOrder_spec.1.nodup_next h.nodup_visiblePreOrder

/-- No two visible nodes show the same child. -/
theorem shown_by_one (h : t.Spanning) {p q : NodeId} (hp : p ∈ t.visiblePreOrder) (hq : q ∈ t.visiblePreOrder)
    (hn : t.get? p = some n) (hm : t.get? q = some m) (hc : c ∈ n.visibleChildren) (hc' : c ∈ m.visibleChildren) : p = q := by
  by_contra hne
  have hsymm : Std.Symm (Function.onFun List.Disjoint (t.nextAt Node.visibleChildren)) := ⟨fun _ _ hd _ ha hb => hd hb ha⟩
  have hdisjoint := (List.nodup_flatMap.mp h.shown_once).2.forall hp hq hne
  have hcp : c ∈ t.nextAt Node.visibleChildren p := (nextAt_eq hn).symm ▸ hc
  have hcq : c ∈ t.nextAt Node.visibleChildren q := (nextAt_eq hm).symm ▸ hc'
  exact hdisjoint hcp hcq

/-- What is visible below a visible node is visible. -/
theorem visible_below (h : t.Spanning) (hi : i ∈ t.visiblePreOrder) : ∀ j ∈ t.visibleSubtree i, j ∈ t.visiblePreOrder :=
  (h.visibleSubtree_spec (h.lt_size_of_visible hi)).1.downward (fun _ hj => List.mem_singleton.mp hj ▸ hi)
    (fun _ _ hn hj _ hc => h.visible_child hj hn hc)

/-- A child lies below another node just if the node that shows it does. -/
theorem child_below_iff (h : t.Spanning) {p : NodeId} (hp : p ∈ t.visiblePreOrder) (hi : i ∈ t.visiblePreOrder)
    (hn : t.get? i = some n) (hc : c ∈ n.visibleChildren) (hne : c ≠ p) :
    c ∈ t.visibleSubtree p ↔ i ∈ t.visibleSubtree p := by
  have hwalk := (h.visibleSubtree_spec (h.lt_size_of_visible hp)).1
  constructor
  · intro hcp
    rcases List.mem_append.mp (hwalk.perm.mem_iff.mp hcp) with hcp | hcp
    · exact absurd (List.mem_singleton.mp hcp) hne
    · obtain ⟨j, hj, hcj⟩ := List.mem_flatMap.mp hcp
      obtain ⟨m, hm⟩ := hwalk.exists_node hj
      rw [nextAt_eq hm] at hcj
      rwa [h.shown_by_one hi (h.visible_below hp j hj) hn hm hc hcj]
  · exact fun hip => hwalk.next_mem hip hn hc

/-! ## What lies above -/

/-- Visible are the nodes with nothing collapsed above them. -/
theorem mem_visiblePreOrder_iff (h : t.Spanning) (hl : t.Linked) :
    i ∈ t.visiblePreOrder ↔ i < t.size ∧ ∀ a ∈ t.ancestors i, t.collapsedAt a = false := by
  constructor
  · intro hi
    refine ⟨h.lt_size_of_visible hi, ?_⟩
    refine h.downward (P := fun i => ∀ a ∈ t.ancestors i, t.collapsedAt a = false) (fun r hr => ?_) (fun i n _ hn ih c hc => ?_)
      i hi
    · simp [h.ancestors_root hl hr]
    · have hopen : n.isCollapsed = false := by
        rw [Node.visibleChildren] at hc
        split at hc
        · exact absurd hc List.not_mem_nil
        · simpa using ‹¬n.isCollapsed = true›
      rw [h.ancestors_child hl hn (n.visibleChildren_sublist.subset hc)]
      exact List.forall_mem_cons.mpr ⟨(collapsedAt_eq hn).trans hopen, ih⟩
  · rintro ⟨hi, habove⟩
    refine h.from_root (P := fun i => (∀ a ∈ t.ancestors i, t.collapsedAt a = false) → i ∈ t.visiblePreOrder)
      (fun r hr _ => h.root_visible hr) (fun i n hn ih c hc habove => ?_) i hi habove
    rw [h.ancestors_child hl hn hc, List.forall_mem_cons, collapsedAt_eq hn] at habove
    refine h.visible_child (ih habove.2) hn ?_
    rw [Node.visibleChildren, habove.1]
    exact hc

/-- The visible walk is the pre-order without the nodes that have something collapsed above them. -/
theorem visiblePreOrder_eq_filter (h : t.Spanning) (hl : t.Linked) :
    t.visiblePreOrder = t.preOrder.filter (fun i => (t.ancestors i).all (fun a => !t.collapsedAt a)) := by
  have hfilter : ∀ i ∈ t.preOrder, (t.ancestors i).all (fun a => !t.collapsedAt a) = true ↔ i ∈ t.visiblePreOrder := by
    intro i hi
    simp [h.mem_visiblePreOrder_iff hl, h.lt_size_of_mem hi]
  rw [filter_eq_of_sublist h.visiblePreOrder_spec.2 h.once (fun i hi hall => (hfilter i hi).mp hall), List.filter_eq_self.mpr]
  exact fun i hi => (hfilter i (h.visiblePreOrder_spec.2.subset hi)).mpr hi

/-- What lies above a visible node is visible. -/
theorem visible_above (h : t.Spanning) (hl : t.Linked) (hj : j ∈ t.visiblePreOrder) (hi : i ∈ t.ancestors j) :
    i ∈ t.visiblePreOrder := by
  obtain ⟨n, hn⟩ := exists_node_of_mem_ancestors hi
  obtain ⟨-, hopen⟩ := (h.mem_visiblePreOrder_iff hl).mp hj
  obtain ⟨between, hsplit, -⟩ := h.ancestors_through hl hi
  refine (h.mem_visiblePreOrder_iff hl).mpr ⟨lt_size_iff.mpr ⟨n, hn⟩, fun a ha => hopen a ?_⟩
  rw [hsplit]
  exact List.mem_append_right _ (List.mem_cons_of_mem i ha)

/-- What lies below a visible node is visible if neither that node is collapsed nor any between the two. -/
theorem visible_under_iff (h : t.Spanning) (hl : t.Linked) (hi : i ∈ t.visiblePreOrder) (hj : i ∈ t.ancestors j) :
    j ∈ t.visiblePreOrder ↔ t.collapsedAt i = false ∧ t.OpenBelow i j := by
  have hbelow := (h.mem_descendants_iff hl (h.lt_size_of_visible hi)).mpr hj
  have habove := ((h.mem_visiblePreOrder_iff hl).mp hi).2
  obtain ⟨between, hsplit, hbetween⟩ := h.ancestors_through hl hj
  rw [h.mem_visiblePreOrder_iff hl]
  constructor
  · rintro ⟨-, hall⟩
    exact ⟨hall i hj, hbelow, fun a ha _ => hall a ha⟩
  · rintro ⟨hopen, -, hall⟩
    refine ⟨lt_size_of_mem_ancestors hj, fun a ha => ?_⟩
    have hcases := ha
    rw [hsplit, List.mem_append, List.mem_cons] at hcases
    rcases hcases with hb | rfl | hup
    · exact hall a ha (hbetween a hb)
    · exact hopen
    · exact habove a hup

/-! ## Footprints -/

/-- The footprint of a node that shows no children is one; that of another is the sum of those of the children it shows. -/
theorem footprint_eq (h : t.Spanning) (hn : t.get? i = some n) :
    t.footprint i = if n.visibleChildren.isEmpty then 1 else Number.total (n.visibleChildren.map t.footprint) := by
  have htotal : ∀ ids : List NodeId,
      (ids.flatMap t.visibleSubtree).countP t.showsNoChildren = Number.total (ids.map t.footprint) := by
    intro ids
    induction ids with
    | nil => rfl
    | cons c ids ih => rw [List.flatMap_cons, List.countP_append, ih, List.map_cons, Number.total_cons, footprint]
  rw [footprint, h.visibleSubtree_eq hn, List.countP_cons, htotal, showsNoChildren_eq hn]
  cases n.visibleChildren with
  | nil => rfl
  | cons c ids => rfl

end Spanning

/-- Footprints are told by which children are shown. -/
theorem footprint_congr {t' : Tree α} (h : Agrees Node.visibleChildren t t') (i : NodeId) : t'.footprint i = t.footprint i := by
  have hview : ∀ (u : Tree α) (j : NodeId), u.showsNoChildren j = ((u.get? j).map Node.visibleChildren).any List.isEmpty := by
    intro u j
    rw [showsNoChildren, Option.any_map]
  have hshows : t'.showsNoChildren = t.showsNoChildren := by
    funext j
    rw [hview, hview, h.2 j]
  rw [footprint, visibleSubtree_congr h, hshows, footprint]

end DaxPlan.Tree
