import DaxPlan.Proofs.Layout.Tables

/-!
# Footprints added up and leaves counted

The footprint of a single node is counted by a search below it; the footprints of all visible nodes are added up in a table from
the leaves. Both come to the number of visible leaves below the node: what the search finds is what is visible and lies in the
subtree (`Spanning.visibleSubtree_perm`), and it finds each of these once whatever order it takes the children in. For the root
that is every leaf of the visible tree (`footprints_agree`).
-/

namespace DaxPlan.Tree

variable {α : Type} {t : Tree α} {i j r : NodeId}

namespace Spanning

/-- Visible below a visible node is what is visible and lies in its subtree. -/
theorem mem_visibleSubtree_iff (h : t.Spanning) (hl : t.Linked) (hi : i ∈ t.visiblePreOrder) :
    j ∈ t.visibleSubtree i ↔ j ∈ t.visiblePreOrder ∧ j ∈ t.subtree i := by
  have hsize := h.lt_size_of_visible hi
  obtain ⟨hwalk, hpart⟩ := h.visibleSubtree_spec hsize
  have hself : i ∈ t.visibleSubtree i := hwalk.pending_subset List.mem_cons_self
  refine ⟨fun hj => ⟨h.visible_below hi j hj, hpart.subset hj⟩, fun ⟨hvisible, hbelow⟩ => ?_⟩
  rw [h.mem_subtree_iff hl hsize] at hbelow
  -- from the root down: a node on whose way the top lies is the top, or its parent is such a node
  refine h.downward (P := fun j => i ∈ t.path j → j ∈ t.visibleSubtree i) (fun r hr hpath => ?_)
    (fun k m _ hm ih c hc hpath => ?_) j hvisible hbelow
  · rw [h.path_root hl hr, List.mem_singleton] at hpath
    exact hpath ▸ hself
  · rw [h.path_child hl hm (m.visibleChildren_sublist.subset hc), List.mem_append, List.mem_singleton] at hpath
    rcases hpath with hpath | rfl
    · exact hwalk.next_mem (ih hpath) hm hc
    · exact hself

theorem visibleSubtree_perm (h : t.Spanning) (hl : t.Linked) (hi : i ∈ t.visiblePreOrder) :
    (t.visibleSubtree i).Perm (t.visiblePreOrder.filter (· ∈ t.subtree i)) := by
  rw [List.perm_ext_iff_of_nodup (h.nodup_visibleSubtree (h.lt_size_of_visible hi)) (h.nodup_visiblePreOrder.filter _)]
  intro j
  rw [h.mem_visibleSubtree_iff hl hi, List.mem_filter, decide_eq_true_iff]

/-- Every node has a leaf place. -/
theorem one_le_footprint (h : t.Spanning) (hi : i < t.size) : 1 ≤ t.footprint i := by
  refine h.upward (P := fun i => 1 ≤ t.footprint i) (fun i n hn hchildren => ?_) hi
  rw [h.footprint_eq hn]
  cases hshown : n.visibleChildren with
  | nil => exact Nat.le_refl 1
  | cons c ids =>
    have hfirst := hchildren c (by simp [hshown])
    rw [List.map_cons, Number.total_cons]
    exact hfirst.trans (Nat.le_add_right _ _)

/-- The footprint is what a search counts that goes on with the last child first. -/
theorem footprint_searched (h : t.Spanning) (hi : i < t.size) :
    ∃ found, t.Visits (fun n => n.visibleChildren.reverse) [i] found ∧ found.countP t.showsNoChildren = t.footprint i := by
  obtain ⟨found, hperm, hfound⟩ := (h.visibleSubtree_spec hi).1.reversed
  exact ⟨found, hfound, hperm.countP_eq _⟩

end Spanning

theorem size_visibleFootprints (t : Tree α) : t.visibleFootprints.size = t.size :=
  (Layout.size_noteAll (Layout.footprintFrom t) t.visiblePreOrder _).trans Array.size_replicate

/-- Nothing is noted for hidden nodes. -/
theorem visibleFootprints_hidden (hsize : i < t.size) (hi : i ∉ t.visiblePreOrder) : t.visibleFootprints[i]? = some 0 := by
  have hother : (Layout.noteAll (Layout.footprintFrom t) (t.visiblePreOrder ++ []) (Array.replicate t.size 0))[i]? =
      (Layout.noteAll (Layout.footprintFrom t) [] (Array.replicate t.size 0))[i]? := Layout.noteAll_append hi
  rw [List.append_nil] at hother
  exact hother.trans (by simp [Layout.noteAll, hsize])

/-- There are two ways to the footprints. The table that is filled from the leaves up holds for every visible node what a search
below that node counts, in whatever order the search takes the children: the visible nodes of its subtree that show no children,
of which there is one at least. The table holds zero for hidden nodes; the search counts none below a node that is not there,
and below the root all visible nodes that show no children. -/
theorem footprints_agree (h : t.Spanning) (hl : t.Linked) :
    t.visibleFootprints.size = t.size ∧
      (∀ i ∈ t.visiblePreOrder, t.visibleFootprints[i]? = some (t.footprint i) ∧
        t.footprint i = (t.visiblePreOrder.filter (· ∈ t.subtree i)).countP t.showsNoChildren ∧ 1 ≤ t.footprint i) ∧
      (∀ i < t.size, i ∉ t.visiblePreOrder → t.visibleFootprints[i]? = some 0) ∧
      (∀ i < t.size, ∃ found, t.Visits (fun n => n.visibleChildren.reverse) [i] found ∧
        found.countP t.showsNoChildren = t.footprint i) ∧
      (∀ i, t.size ≤ i → t.footprint i = 0) ∧
      ∀ r, t.root = some r → t.footprint r = t.visiblePreOrder.countP t.showsNoChildren := by
  refine ⟨size_visibleFootprints t, fun i hi => ⟨?_, (h.visibleSubtree_perm hl hi).countP_eq _, ?_⟩,
    fun i hsize hi => visibleFootprints_hidden hsize hi, fun i hi => h.footprint_searched hi, fun i hi => ?_, fun r hr => ?_⟩
  · have hsize : i < t.visibleFootprints.size := (size_visibleFootprints t).symm ▸ h.lt_size_of_visible hi
    have hentry := Layout.visibleFootprints_eq h hi
    rw [Array.getElem?_eq_getElem hsize, Option.getD_some] at hentry
    rw [Array.getElem?_eq_getElem hsize, hentry]
  · exact h.one_le_footprint (h.lt_size_of_visible hi)
  · have hnone : t.get? i = none := Array.getElem?_eq_none hi
    rw [footprint, visibleSubtree, walkFrom_of_none hnone]
    rfl
  · rw [footprint, visiblePreOrder_root hr]

/-- A collapsed node with two children beside a node with one child that shows two: the root has three places, one of them for
all that is collapsed. -/
theorem footprints_agree_folded :
    let row (level : Nat) : Row := ⟨1, level, "", "", .unknown, none, none⟩
    let t : Tree Rat := (Tree.ofRows ([0, 1, 2, 2, 1, 2, 3, 3].map row)).setCollapsed 1 true
    t.Spanning ∧ t.Linked ∧ t.visiblePreOrder = [0, 1, 4, 5, 6, 7] ∧ t.footprint 0 = 3 ∧ t.footprint 4 = 2 ∧
      t.visibleFootprints[4]? = some 2 ∧ t.visibleFootprints[2]? = some 0 ∧ t.footprint 8 = 0 := by
  intro row t
  have h : t.WellFormed := (Outline.ofRows_wellFormed _).of_agrees
    ((Layout.setCollapsed_agrees _ 1 true).view (fun n => (n.links, n.depth)) (fun _ => rfl))
  have hvisible : t.visiblePreOrder = [0, 1, 4, 5, 6, 7] := by decide +kernel
  obtain ⟨-, hshown, hhidden, -, hnone, hroot⟩ := footprints_agree h.toSpanning h.linked
  obtain ⟨hentry, hcount, -⟩ := hshown 4 (by simp [hvisible])
  have hfour : t.footprint 4 = 2 := hcount.trans (by rw [hvisible]; decide +kernel)
  refine ⟨h.toSpanning, h.linked, hvisible, (hroot 0 (by decide)).trans (by rw [hvisible]; decide +kernel), hfour,
    hentry.trans (congrArg some hfour), hhidden 2 (by decide) (by simp [hvisible]), hnone 8 (by decide)⟩

end DaxPlan.Tree
