import DaxPlan.Proofs.Layout.Preservation
import DaxPlan.Proofs.Tree.Visible

/-!
# What the actions show

An action changes flags and leaves the links alone, so what lies above a node does so afterwards, and a node is visible then if
the action leaves nothing above it collapsed (`mem_visible_refold`). The actions leave different things collapsed: nothing at all,
every node with children but the root, what does not lie above one node, or what was collapsed with one node flipped. Flipping a
node concerns only what lies below it, and that only if the node is visible: then it shows or hides what is open below the node
(`visible_under_flipped`).
-/

namespace DaxPlan.Layout

open DaxPlan.Tree

variable {α : Type} {t : Tree α} {a : Action} {i j r id : NodeId} {n : Node α}

/-- Folding changes no links. -/
theorem refold_links (a : Action) (t : Tree α) : Agrees Node.links t (a.refold t) :=
  (a.refold_agrees t).view Node.links (fun _ => rfl)

/-- A tree that is folded anew is spanned by its walk. -/
theorem spanning_refold (h : t.Spanning) (a : Action) : (a.refold t).Spanning := h.of_agrees (refold_links a t)

/-- Parents and children fit together in a tree that is folded anew. -/
theorem linked_refold (hl : t.Linked) (a : Action) : (a.refold t).Linked := hl.of_agrees (refold_links a t)

/-- Folding changes nothing above a node. -/
theorem ancestors_refold (a : Action) (t : Tree α) (i : NodeId) : (a.refold t).ancestors i = t.ancestors i :=
  ancestors_congr ((refold_links a t).view (fun l => l.2.1) (fun _ => rfl)) i

/-- A node is folded as the action says. -/
theorem collapsedAt_refold (h : t.Spanning) (a : Action) (i : NodeId) :
    (a.refold t).collapsedAt i = (t.get? i).any (a.flag t i) := by
  have hflag := congrArg (Option.any id) (refold_flag h a i)
  rw [Option.any_map, Option.any_map] at hflag
  exact hflag

/-- Visible after an action are the nodes above which it leaves nothing collapsed. -/
theorem mem_visible_refold (h : t.Spanning) (hl : t.Linked) (a : Action) (i : NodeId) :
    i ∈ (a.refold t).visiblePreOrder ↔ i < t.size ∧ ∀ x ∈ t.ancestors i, (a.refold t).collapsedAt x = false := by
  rw [(spanning_refold h a).mem_visiblePreOrder_iff (linked_refold hl a), (refold_links a t).size_eq, ancestors_refold]

/-! ## Folding and unfolding -/

/-- All nodes are visible when all are opened. -/
theorem mem_visible_expandAll (h : t.Spanning) (hl : t.Linked) (i : NodeId) :
    i ∈ (Action.expandAll.refold t).visiblePreOrder ↔ i < t.size := by
  rw [mem_visible_refold h hl]
  refine and_iff_left (fun x _ => ?_)
  rw [collapsedAt_refold h]
  simp [Action.flag]

/-- Once all nodes with children but the root are folded, nothing is visible below the children of the root. -/
theorem mem_visible_collapseAll (h : t.Spanning) (hl : t.Linked) (i : NodeId) :
    i ∈ (Action.collapseAll.refold t).visiblePreOrder ↔
      ∃ r n, t.root = some r ∧ t.get? r = some n ∧ (i = r ∨ i ∈ n.children) := by
  rw [mem_visible_refold h hl]
  constructor
  · rintro ⟨hi, hopen⟩
    obtain ⟨n, hn⟩ := lt_size_iff.mp hi
    by_cases hroot : t.root = some i
    · exact ⟨i, n, hroot, hn, Or.inl rfl⟩
    · obtain ⟨p, -, hp, -⟩ := h.listed_once hl hn hroot
      obtain ⟨m, hm, hchild⟩ := (hl i n p hn).mp hp
      have hflag := hopen p (by simp [h.ancestors_child hl hm hchild])
      rw [collapsedAt_refold h, hm, Option.any_some, Action.flag, decide_eq_false_iff_not, not_and, not_not] at hflag
      exact ⟨p, m, hflag (List.ne_nil_of_mem hchild), hm, Or.inr hchild⟩
  · rintro ⟨r, n, hr, hn, rfl | hi⟩
    · exact ⟨h.root_lt_size hr, by simp [h.ancestors_root hl hr]⟩
    · refine ⟨h.child_lt_size hn hi, fun x hx => ?_⟩
      rw [h.ancestors_child hl hn hi, h.ancestors_root hl hr, List.mem_singleton] at hx
      subst hx
      rw [collapsedAt_refold h, hn]
      simp [Action.flag, hr]

/-- Once all above one node is unfolded, what was collapsed hides nodes only if it is not above that one. -/
theorem mem_visible_expandPathTo (h : t.Spanning) (hl : t.Linked) (id i : NodeId) :
    i ∈ ((Action.expandPathTo id).refold t).visiblePreOrder ↔
      i < t.size ∧ ∀ x ∈ t.ancestors i, t.collapsedAt x = true → x ∈ t.ancestors id := by
  rw [mem_visible_refold h hl]
  refine and_congr_right (fun _ => forall₂_congr (fun x hx => ?_))
  obtain ⟨n, hn⟩ := exists_node_of_mem_ancestors hx
  rw [collapsedAt_refold h, collapsedAt_eq hn, hn, Option.any_some, Action.flag]
  by_cases hxid : x ∈ t.ancestors id <;> simp [hxid]

/-! ## Flipping -/

/-- Flipping a node folds or opens it, if it has children, and no other. -/
theorem collapsedAt_flipped (h : t.Spanning) (hn : t.get? id = some n) (i : NodeId) :
    ((Action.toggleCollapse id).refold t).collapsedAt i =
      if i = id ∧ n.children ≠ [] then !n.isCollapsed else t.collapsedAt i := by
  rw [collapsedAt_refold h]
  by_cases hi : i = id
  · subst hi
    rw [hn, Option.any_some, Action.flag, collapsedAt_eq hn]
  · simp [Action.flag, hi, collapsedAt]

/-- Flipping a node changes nothing that is not below it. -/
theorem visible_apart_flipped (h : t.Spanning) (hl : t.Linked) (hn : t.get? id = some n) (hj : id ∉ t.ancestors j) :
    j ∈ ((Action.toggleCollapse id).refold t).visiblePreOrder ↔ j ∈ t.visiblePreOrder := by
  rw [mem_visible_refold h hl, h.mem_visiblePreOrder_iff hl]
  refine and_congr_right (fun _ => forall₂_congr (fun x hx => ?_))
  rw [collapsedAt_flipped h hn, if_neg]
  rintro ⟨rfl, -⟩
  exact hj hx

/-- What is open below a visible node is visible once the node is flipped if it was collapsed. -/
theorem visible_under_flipped (h : t.Spanning) (hl : t.Linked) (hn : t.get? id = some n) (hid : id ∈ t.visiblePreOrder)
    (hchildren : n.children ≠ []) (hj : id ∈ t.ancestors j) :
    j ∈ ((Action.toggleCollapse id).refold t).visiblePreOrder ↔ n.isCollapsed = true ∧ t.OpenBelow id j := by
  have hshown := (visible_apart_flipped h hl hn (h.not_mem_ancestors hl id)).mpr hid
  have hbelow : ((Action.toggleCollapse id).refold t).descendants id = t.descendants id := by
    rw [descendants, descendants, subtree_congr ((refold_links _ t).view (fun l => l.2.2) (fun _ => rfl))]
  rw [(spanning_refold h _).visible_under_iff (linked_refold hl _) hshown (by rwa [ancestors_refold]),
    collapsedAt_flipped h hn, if_pos ⟨rfl, hchildren⟩, Bool.not_eq_false', OpenBelow, OpenBelow, hbelow]
  simp only [ancestors_refold]
  refine and_congr_right (fun _ => and_congr_right (fun _ => forall₂_congr (fun x _ => imp_congr_right (fun hx => ?_))))
  rw [collapsedAt_flipped h hn, if_neg]
  rintro ⟨rfl, -⟩
  exact h.not_mem_ancestors hl x hx

/-- Flipping a node that is hidden or has no children changes nothing. -/
theorem visible_flipped_same (h : t.Spanning) (hl : t.Linked) (hn : t.get? id = some n)
    (hidle : id ∉ t.visiblePreOrder ∨ n.children = []) (j : NodeId) :
    j ∈ ((Action.toggleCollapse id).refold t).visiblePreOrder ↔ j ∈ t.visiblePreOrder := by
  by_cases hj : id ∈ t.ancestors j
  · rcases hidle with hhidden | hleaf
    · -- what lies below a hidden node is hidden, and the node is not above itself
      have hhidden' := mt (visible_apart_flipped h hl hn (h.not_mem_ancestors hl id)).mp hhidden
      have hj' : id ∈ ((Action.toggleCollapse id).refold t).ancestors j := by rwa [ancestors_refold]
      exact iff_of_false (fun hv => hhidden' ((spanning_refold h _).visible_above (linked_refold hl _) hv hj'))
        (fun hv => hhidden (h.visible_above hl hv hj))
    · rw [mem_visible_refold h hl, h.mem_visiblePreOrder_iff hl]
      simp [collapsedAt_flipped h hn, hleaf]
  · exact visible_apart_flipped h hl hn hj

/-- Flipping a visible node with children adds what is open below it if it was collapsed, and takes it away if not. -/
theorem visible_flipped (h : t.Spanning) (hl : t.Linked) (hn : t.get? id = some n) (hid : id ∈ t.visiblePreOrder)
    (hchildren : n.children ≠ []) :
    let shown := ((Action.toggleCollapse id).refold t).visiblePreOrder
    (n.isCollapsed = true → (∀ j ∈ t.visiblePreOrder, j ∈ shown) ∧ ∀ j, j ∈ shown ∧ j ∉ t.visiblePreOrder ↔ t.OpenBelow id j) ∧
      (n.isCollapsed = false → (∀ j ∈ shown, j ∈ t.visiblePreOrder) ∧
        ∀ j, j ∈ t.visiblePreOrder ∧ j ∉ shown ↔ t.OpenBelow id j) := by
  intro shown
  -- Only what lies below the node can change, and it shows by what is collapsed between them.
  have hcases : ∀ j,
      ((j ∈ shown ↔ n.isCollapsed = true ∧ t.OpenBelow id j) ∧
        (j ∈ t.visiblePreOrder ↔ n.isCollapsed = false ∧ t.OpenBelow id j)) ∨
      ((j ∈ shown ↔ j ∈ t.visiblePreOrder) ∧ ¬t.OpenBelow id j) := by
    intro j
    by_cases hj : id ∈ t.ancestors j
    · refine Or.inl ⟨visible_under_flipped h hl hn hid hchildren hj, ?_⟩
      rw [h.visible_under_iff hl hid hj, collapsedAt_eq hn]
    · refine Or.inr ⟨visible_apart_flipped h hl hn hj, fun hbelow => hj ?_⟩
      exact (h.mem_descendants_iff hl (h.lt_size_of_visible hid)).mp hbelow.1
  constructor
  · intro hcollapsed
    refine ⟨fun j hj => ?_, fun j => ?_⟩
    · rcases hcases j with ⟨-, hv⟩ | ⟨hsame, -⟩
      · simp [hv, hcollapsed] at hj
      · exact hsame.mpr hj
    · rcases hcases j with ⟨hs, hv⟩ | ⟨hsame, hnot⟩
      · simp [hs, hv, hcollapsed]
      · simp [hsame, hnot]
  · intro hopen
    refine ⟨fun j hj => ?_, fun j => ?_⟩
    · rcases hcases j with ⟨hs, -⟩ | ⟨hsame, -⟩
      · simp [hs, hopen] at hj
      · exact hsame.mp hj
    · rcases hcases j with ⟨hs, hv⟩ | ⟨hsame, hnot⟩
      · simp [hs, hv, hopen]
      · simp [hsame, hnot]

/-- The visible walk is told by which nodes are visible. -/
theorem visiblePreOrder_refold (h : t.Spanning) (hl : t.Linked)
    (hsame : ∀ i, i ∈ (a.refold t).visiblePreOrder ↔ i ∈ t.visiblePreOrder) :
    (a.refold t).visiblePreOrder = t.visiblePreOrder := by
  rw [(spanning_refold h a).visiblePreOrder_eq_filter (linked_refold hl a), h.visiblePreOrder_eq_filter hl,
    preOrder_congr ((refold_links a t).view (fun l => l.2.2) (fun _ => rfl))]
  refine List.filter_congr (fun i hi => ?_)
  have hi' := hsame i
  rw [mem_visible_refold h hl, h.mem_visiblePreOrder_iff hl, and_iff_right (h.lt_size_of_mem hi),
    and_iff_right (h.lt_size_of_mem hi)] at hi'
  rw [Bool.eq_iff_iff, ancestors_refold]
  simpa using hi'

/-! ## The actions -/

/-- The same is visible after the layout that follows opening the way to a node. -/
theorem visible_expandPathTo [Quantity α] (e : Engine α) (p : Plan α) (hid : p.tree.contains id = true) :
    (e.expandPathTo p id).2.1.tree.visiblePreOrder = ((Action.expandPathTo id).refold p.tree).visiblePreOrder := by
  rw [Engine.expandPathTo, if_pos hid]
  exact visiblePreOrder_layout e (p.mapTree (Action.expandPathTo id).refold)

/-- The same is visible after the layout that follows flipping a node. -/
theorem visible_toggleCollapse [Quantity α] (e : Engine α) (p : Plan α) (hid : p.tree.contains id = true) :
    (e.toggleCollapse p id).2.1.tree.visiblePreOrder = ((Action.toggleCollapse id).refold p.tree).visiblePreOrder := by
  rw [Engine.toggleCollapse, if_pos hid]
  exact visiblePreOrder_layout e (p.mapTree (Action.toggleCollapse id).refold)

/-- What the actions make visible. Unfolding the way to a node that is there shows it, hides nothing, and shows just the nodes
whose collapsed ancestors are all ancestors of that node. Unfolding all shows every node. Folding all shows the root and its
children. Flipping a visible node with children adds what is open below it if it was collapsed and takes it away if not; flipping
any other node changes nothing. -/
theorem actions_show [Quantity α] (e : Engine α) (p : Plan α) (h : p.tree.Spanning) (hl : p.tree.Linked) :
    let t := p.tree
    (∀ id, t.contains id = true →
      let shown := (e.expandPathTo p id).2.1.tree.visiblePreOrder
      id ∈ shown ∧ (∀ i ∈ t.visiblePreOrder, i ∈ shown) ∧
        ∀ i, i ∈ shown ↔ i < t.size ∧ ∀ a ∈ t.ancestors i, t.collapsedAt a = true → a ∈ t.ancestors id) ∧
    (∀ i, i ∈ (e.expandAll p).2.1.tree.visiblePreOrder ↔ i < t.size) ∧
    (∀ i, i ∈ (e.collapseAll p).2.1.tree.visiblePreOrder ↔
      ∃ r n, t.root = some r ∧ t.get? r = some n ∧ (i = r ∨ i ∈ n.children)) ∧
    (∀ id n, t.get? id = some n →
      let shown := (e.toggleCollapse p id).2.1.tree.visiblePreOrder
      (id ∈ t.visiblePreOrder → n.children ≠ [] →
        (n.isCollapsed = true → (∀ j ∈ t.visiblePreOrder, j ∈ shown) ∧
          ∀ j, j ∈ shown ∧ j ∉ t.visiblePreOrder ↔ t.OpenBelow id j) ∧
        (n.isCollapsed = false → (∀ j ∈ shown, j ∈ t.visiblePreOrder) ∧
          ∀ j, j ∈ t.visiblePreOrder ∧ j ∉ shown ↔ t.OpenBelow id j)) ∧
      (id ∉ t.visiblePreOrder ∨ n.children = [] → shown = t.visiblePreOrder)) := by
  intro t
  refine ⟨fun id hid => ?_, fun i => ?_, fun i => ?_, fun id n hn => ?_⟩
  · intro shown
    have hmem := mem_visible_expandPathTo h hl id
    rw [show shown = _ from visible_expandPathTo e p hid]
    refine ⟨(hmem id).mpr ⟨contains_iff.mp hid, fun a ha _ => ha⟩, fun i hi => ?_, hmem⟩
    obtain ⟨hsize, hopen⟩ := (h.mem_visiblePreOrder_iff hl).mp hi
    exact (hmem i).mpr ⟨hsize, fun a ha hcollapsed => absurd (hopen a ha) (by simp [hcollapsed])⟩
  · rw [show (e.expandAll p).2.1.tree.visiblePreOrder = _ from visiblePreOrder_layout e (p.mapTree Action.expandAll.refold)]
    exact mem_visible_expandAll h hl i
  · rw [show (e.collapseAll p).2.1.tree.visiblePreOrder = _ from visiblePreOrder_layout e (p.mapTree Action.collapseAll.refold)]
    exact mem_visible_collapseAll h hl i
  · intro shown
    rw [show shown = _ from visible_toggleCollapse e p (contains_iff.mpr (lt_size_iff.mpr ⟨n, hn⟩))]
    exact ⟨visible_flipped h hl hn, fun hidle => visiblePreOrder_refold h hl (visible_flipped_same h hl hn hidle)⟩

/-- Each of four nodes below the one before, the second and the third collapsed: flipping the second shows the third but not the
fourth, and the way to the fourth shows it. -/
theorem actions_show_nested :
    let row (level : Nat) : Row := ⟨1, level, "", "", .unknown, none, none⟩
    let p : Plan Rat := Plan.parsed .physical ""
      (((Tree.ofRows ([0, 1, 2, 3].map row)).setCollapsed 1 true).setCollapsed 2 true)
    let e : Engine Rat := Engine.new LayoutConfig.standard
    p.tree.WellFormed ∧ 1 ∈ p.tree.visiblePreOrder ∧ 2 ∉ p.tree.visiblePreOrder ∧
      2 ∈ (e.toggleCollapse p 1).2.1.tree.visiblePreOrder ∧ 3 ∉ (e.toggleCollapse p 1).2.1.tree.visiblePreOrder ∧
      3 ∈ (e.expandPathTo p 3).2.1.tree.visiblePreOrder := by
  intro row p e
  have hp : p.tree = ((Tree.ofRows ([0, 1, 2, 3].map row)).setCollapsed 1 true).setCollapsed 2 true := Plan.tree_parsed _ _ _
  have h : p.tree.WellFormed := by
    rw [hp]
    exact (Outline.ofRows_wellFormed _).of_agrees (((setCollapsed_agrees _ 1 true).trans (setCollapsed_agrees _ 2 true)).view
      (fun n => (n.links, n.depth)) (fun _ => rfl))
  have hnode : (p.tree.get? 1).any (fun n => !n.isLeaf && n.isCollapsed) = true := by
    rw [hp]
    decide +kernel
  have hbefore : 1 ∈ p.tree.visiblePreOrder ∧ 2 ∉ p.tree.visiblePreOrder ∧ 3 ∉ p.tree.visiblePreOrder := by
    rw [hp]
    decide +kernel
  have hopen : p.tree.OpenBelow 1 2 ∧ ¬p.tree.OpenBelow 1 3 := by
    rw [hp]
    decide +kernel
  obtain ⟨n, hn, hcollapsed⟩ := (Option.any_eq_true _ _).mp hnode
  simp only [Node.isLeaf, Bool.and_eq_true, Bool.not_eq_true', List.isEmpty_eq_false_iff] at hcollapsed
  obtain ⟨hpath, -, -, hflip⟩ := actions_show e p h.toSpanning h.linked
  have hadded := (((hflip 1 n hn).1 hbefore.1 hcollapsed.1).1 hcollapsed.2).2
  have hthere : p.tree.contains 3 = true := by
    rw [hp]
    decide +kernel
  exact ⟨h, hbefore.1, hbefore.2.1, ((hadded 2).mpr hopen.1).1, fun h3 => hopen.2 ((hadded 3).mp ⟨h3, hbefore.2.2⟩),
    (hpath 3 hthere).1⟩

end DaxPlan.Layout
