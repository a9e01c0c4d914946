import DaxPlan.Proofs.Tree.Traversal

/-!
# Spanning trees

In a spanning tree the pre-order is a permutation of the places, every subtree is a block of it, and what is visible is a part of
it in the same order. Whether a tree spans, whether its parent links match, and whether its levels go down by one is told by the
links and the levels alone, so a change of anything else keeps it (`Spanning.of_agrees`, `Linked.of_agrees`,
`Leveled.of_agrees`).
-/

namespace DaxPlan

/-- What a node tells of the shape of the tree. -/
def Node.links {α : Type} (n : Node α) : NodeId × Option NodeId × List NodeId := (n.id, n.parent, n.children)

/-- The children that a node shows are children of it. -/
theorem Node.visibleChildren_sublist {α : Type} (n : Node α) : n.visibleChildren.Sublist n.children := by
  unfold visibleChildren
  split
  · exact List.nil_sublist _
  · exact List.Sublist.refl _

namespace Tree

variable {α : Type} {t t' : Tree α} {i j c r : NodeId} {n m : Node α}

/-- The visible walk is what is visible from the root on. -/
theorem visiblePreOrder_root (hr : t.root = some r) : t.visiblePreOrder = t.visibleSubtree r := by
  unfold visiblePreOrder
  rw [hr]

namespace Spanning

/-- What the walk meets is there. -/
theorem lt_size_of_mem (h : t.Spanning) (hi : i ∈ t.preOrder) : i < t.size :=
  lt_size_iff.mpr (h.traversal.exists_node hi)

/-- The walk meets just the nodes that are there. -/
theorem mem_preOrder_iff (h : t.Spanning) : i ∈ t.preOrder ↔ i < t.size :=
  ⟨h.lt_size_of_mem, h.reached i⟩

/-- The walk is an order of all ids. -/
theorem preOrder_perm (h : t.Spanning) : t.preOrder.Perm (List.range t.size) := by
  rw [List.perm_ext_iff_of_nodup h.once List.nodup_range]
  intro i
  rw [h.mem_preOrder_iff, List.mem_range]

/-- The walk is as long as the tree is large. -/
theorem length_preOrder (h : t.Spanning) : t.preOrder.length = t.size := by
  rw [h.preOrder_perm.length_eq, List.length_range]

/-- A child is there. -/
theorem child_lt_size (h : t.Spanning) (hn : t.get? i = some n) (hc : c ∈ n.children) : c < t.size :=
  h.lt_size_of_mem (h.traversal.next_mem (h.reached i (lt_size_iff.mpr ⟨n, hn⟩)) hn hc)

/-- A child that is shown is there. -/
theorem visibleChild_lt_size (h : t.Spanning) (hn : t.get? i = some n) (hc : c ∈ n.visibleChildren) : c < t.size :=
  h.child_lt_size hn (n.visibleChildren_sublist.subset hc)

/-- The nodes with some ids go by those ids. -/
theorem map_id_nodesAt (h : t.Spanning) {ids : List NodeId} (hids : ∀ i ∈ ids, i < t.size) :
    (t.nodesAt ids).map Node.id = ids := by
  induction ids with
  | nil => rfl
  | cons i ids ih =>
    obtain ⟨n, hn⟩ := lt_size_iff.mp (hids i List.mem_cons_self)
    have hrest := ih (fun j hj => hids j (List.mem_cons_of_mem i hj))
    rw [nodesAt] at hrest ⊢
    rw [List.filterMap_cons_some hn, List.map_cons, hrest, h.ids i n hn]

/-! ## Subtrees -/

/-- The subtree of a node is a traversal from it, and a block of the pre-order. -/
theorem subtree_spec (h : t.Spanning) (hi : i < t.size) :
    t.Visits Node.children [i] (t.subtree i) ∧ t.subtree i <:+: t.preOrder := by
  obtain ⟨w, hw, hin⟩ := h.traversal.infix_of_mem (h.reached i hi)
  have hlen : w.length ≤ t.size := h.length_preOrder ▸ hin.length_le
  have hsub : t.subtree i = w := hw.walkFrom_eq hlen
  rw [hsub]
  exact ⟨hw, hin⟩

/-- The visible part of a subtree is a traversal along the visible links, and a part of the subtree in the same order. -/
theorem visibleSubtree_spec (h : t.Spanning) (hi : i < t.size) :
    t.Visits Node.visibleChildren [i] (t.visibleSubtree i) ∧ (t.visibleSubtree i).Sublist (t.subtree i) := by
  obtain ⟨hsub, hin⟩ := h.subtree_spec hi
  obtain ⟨w, hw, hwsub⟩ := hsub.prune Node.visibleChildren_sublist (List.Sublist.refl [i])
  have hlen : w.length ≤ t.size := h.length_preOrder ▸ hwsub.length_le.trans hin.length_le
  have hvis : t.visibleSubtree i = w := hw.walkFrom_eq hlen
  rw [hvis]
  exact ⟨hw, hwsub⟩

/-- A subtree has each node once. -/
theorem nodup_subtree (h : t.Spanning) (hi : i < t.size) : (t.subtree i).Nodup :=
  h.once.sublist (h.subtree_spec hi).2.sublist

/-- What is visible of a subtree has each node once. -/
theorem nodup_visibleSubtree (h : t.Spanning) (hi : i < t.size) : (t.visibleSubtree i).Nodup :=
  (h.nodup_subtree hi).sublist (h.visibleSubtree_spec hi).2

/-- No more is visible of a subtree than there are nodes. -/
theorem length_visibleSubtree_le (h : t.Spanning) (hi : i < t.size) : (t.visibleSubtree i).length ≤ t.size := by
  obtain ⟨-, hblock⟩ := h.subtree_spec hi
  have hle := (h.visibleSubtree_spec hi).2.length_le.trans hblock.length_le
  rwa [h.length_preOrder] at hle

/-! ## The visible walk -/

/-- The visible walk is a traversal along the visible links, and a part of the pre-order in the same order. -/
theorem visiblePreOrder_spec (h : t.Spanning) :
    t.Visits Node.visibleChildren t.root.toList t.visiblePreOrder ∧ t.visiblePreOrder.Sublist t.preOrder := by
  cases hr : t.root with
  | none =>
    have hv : t.visiblePreOrder = [] := by
      unfold visiblePreOrder
      rw [hr]
    rw [hv]
    exact ⟨Visits.done, List.nil_sublist _⟩
  | some r =>
    have hroot : r ∈ t.preOrder := h.traversal.pending_subset (by simp [hr])
    have hp : t.preOrder = t.subtree r := by
      unfold preOrder
      rw [hr]
    rw [visiblePreOrder_root hr, hp]
    exact h.visibleSubtree_spec (h.lt_size_of_mem hroot)

/-- The visible walk meets no node twice. -/
theorem nodup_visiblePreOrder (h : t.Spanning) : t.visiblePreOrder.Nodup :=
  h.once.sublist h.visiblePreOrder_spec.2

/-- What is visible is there. -/
theorem lt_size_of_visible (h : t.Spanning) (hi : i ∈ t.visiblePreOrder) : i < t.size :=
  h.lt_size_of_mem (h.visiblePreOrder_spec.2.subset hi)

/-- Visible nodes are there, each at the place it is named after. -/
theorem visible_node (h : t.Spanning) (hi : i ∈ t.visiblePreOrder) : ∃ n, t.get? i = some n ∧ n.id = i := by
  obtain ⟨n, hn⟩ := h.visiblePreOrder_spec.1.exists_node hi
  exact ⟨n, hn, h.ids i n hn⟩

/-! ## Agreement -/

/-- A tree with the same links is spanned by its walk too. -/
theorem of_agrees (h : t.Spanning) (ha : Agrees Node.links t t') : t'.Spanning := by
  have hids : Agrees Node.id t t' := ha.view Prod.fst (fun _ => rfl)
  have hchildren : Agrees Node.children t t' := ha.view (fun l => l.2.2) (fun _ => rfl)
  have hpre : t'.preOrder = t.preOrder := preOrder_congr hchildren
  refine ⟨fun i n' hn' => ?_, ?_, ?_, ?_⟩
  · obtain ⟨n, hn, hid⟩ := hids.symm.get? hn'
    rw [← hid]
    exact h.ids i n hn
  · rw [ha.1, hpre]
    exact h.traversal.congr (fun _ _ _ hn => hchildren.get? hn)
  · rw [ha.size_eq, hpre]
    exact h.reached
  · rw [hpre]
    exact h.once

end Spanning

/-- Parents and children fit together in a tree with the same links. -/
theorem Linked.of_agrees (h : t.Linked) (ha : Agrees Node.links t t') : t'.Linked := by
  have hparent : Agrees Node.parent t t' := ha.view (fun l => l.2.1) (fun _ => rfl)
  have hchildren : Agrees Node.children t t' := ha.view (fun l => l.2.2) (fun _ => rfl)
  intro i n' p hn'
  obtain ⟨n, hn, hp⟩ := hparent.symm.get? hn'
  rw [← hp, h i n p hn]
  constructor
  · rintro ⟨m, hm, hi⟩
    obtain ⟨m', hm', hc⟩ := hchildren.get? hm
    exact ⟨m', hm', hc ▸ hi⟩
  · rintro ⟨m', hm', hi⟩
    obtain ⟨m, hm, hc⟩ := hchildren.symm.get? hm'
    exact ⟨m, hm, hc ▸ hi⟩

/-- Depths are levels in a tree with the same children and depths. -/
theorem Leveled.of_agrees (h : t.Leveled) (ha : Agrees (fun n => (n.children, n.depth)) t t') : t'.Leveled := by
  intro i n' c m' hn' hc hm'
  obtain ⟨n, hn, hni⟩ := ha.symm.get? hn'
  obtain ⟨m, hm, hmc⟩ := ha.symm.get? hm'
  simp only [Prod.mk.injEq] at hni hmc
  rw [← hmc.2, ← hni.2]
  exact h i n c m hn (hni.1 ▸ hc) hm

/-- A tree with the same links and depths is well-formed too. -/
theorem WellFormed.of_agrees (h : t.WellFormed) (ha : Agrees (fun n => (n.links, n.depth)) t t') : t'.WellFormed where
  toSpanning := h.toSpanning.of_agrees (ha.view Prod.fst (fun _ => rfl))
  linked := h.linked.of_agrees (ha.view Prod.fst (fun _ => rfl))
  leveled := h.leveled.of_agrees (ha.view (fun v => (v.1.2.2, v.2)) (fun _ => rfl))
  root_depth r n' hr hn' := by
    obtain ⟨n, hn, he⟩ := ha.symm.get? hn'
    rw [← (Prod.mk.inj he).2]
    exact h.root_depth r n (ha.1 ▸ hr) hn

/-! ## Levels along a traversal -/

/-- Nothing that is visited lies above all pending nodes. -/
theorem Visits.le_depth {s v : List NodeId} {d : Nat} (h : t.Visits Node.children s v) (hl : t.Leveled)
    (hs : ∀ i ∈ s, ∀ n, t.get? i = some n → d ≤ n.depth) : ∀ i ∈ v, ∀ n, t.get? i = some n → d ≤ n.depth := by
  induction h with
  | done => exact hs
  | @visit id n pending visited hn _ ih =>
    have hd : d ≤ n.depth := hs id List.mem_cons_self n hn
    have hrest : ∀ i ∈ n.children ++ pending, ∀ m, t.get? i = some m → d ≤ m.depth := by
      intro i hi m hm
      rcases List.mem_append.mp hi with hi | hi
      · have := hl id n i m hn hi hm
        omega
      · exact hs i (List.mem_cons_of_mem _ hi) m hm
    intro i hi m hm
    rcases List.mem_cons.mp hi with rfl | hi
    · exact hs i List.mem_cons_self m hm
    · exact ih hrest i hi m hm

/-- What lies strictly below a node lies on a deeper level. -/
theorem Spanning.depth_lt_of_mem_subtree (h : t.Spanning) (hl : t.Leveled) (hi : t.get? i = some n) (hj : t.get? j = some m)
    (hmem : j ∈ t.subtree i) (hne : j ≠ i) : n.depth < m.depth := by
  obtain ⟨n', w, hn', hw, hv⟩ := Visits.singleton_iff.mp (h.subtree_spec (lt_size_iff.mpr ⟨n, hi⟩)).1
  rw [hi, Option.some.injEq] at hn'
  subst hn'
  rw [hw] at hmem
  have hmem' : j ∈ w := (List.mem_cons.mp hmem).resolve_left hne
  have hchildren : ∀ c ∈ n.children, ∀ m, t.get? c = some m → n.depth + 1 ≤ m.depth := by
    intro c hc m hm
    rw [hl i n c m hi hc hm]
  exact hv.le_depth hl hchildren j hmem' m hj

end Tree

end DaxPlan
