import DaxPlan.Proofs.Layout.Sweep
import DaxPlan.Proofs.Outline.TextualOrder
import Mathlib.Data.List.Sort

/-!
# No overlaps on a level

After a layout any two visible nodes of one level keep the gap between them, but for the tolerance, and every visible node stands
on the height of its level (`layout_separates_levels`). This does not depend on how many rounds were allowed or whether they
converged: whatever the rounds do, a sweep is the last thing done (`resolveRounds_last_sweep`), and one sweep is enough. A shift
on a level moves nodes of that level and of deeper ones, so that no later level disturbs an earlier one (`sweep_apart`).
-/

namespace DaxPlan.Layout

open DaxPlan.Tree

/-! ## Levels -/

section Levels

variable {α : Type} {t t' : Tree α} {order : List NodeId} {a b : NodeId}

/-- The level of a node. -/
def depthOf (t : Tree α) (id : NodeId) : Nat := ((t.get? id).map Node.depth).getD 0

theorem depthOf_eq {n : Node α} (h : t.get? a = some n) : depthOf t a = n.depth := by
  simp [depthOf, h]

theorem depthOf_eq_of_agrees (h : Agrees Node.depth t t') (id : NodeId) : depthOf t' id = depthOf t id := by
  unfold depthOf
  rw [h.2 id]

/-- The levels are the depths that occur, in ascending order, each with its nodes as in the walk. -/
theorem levels_eq [Quantity α] (h : ∀ id ∈ order, ∃ n, t.get? id = some n ∧ n.id = id) :
    levels t order = (idSet (order.map (depthOf t))).map (fun d => order.filter (fun id => depthOf t id == d)) := by
  have hleveled : (t.nodesAt order).map (fun n => (n.depth, n.id)) = order.map (fun id => (depthOf t id, id)) := by
    induction order with
    | nil => rfl
    | cons id order ih =>
      obtain ⟨n, hn, hid⟩ := h id List.mem_cons_self
      have htail := ih (fun i hi => h i (List.mem_cons_of_mem _ hi))
      unfold nodesAt at htail ⊢
      rw [List.filterMap_cons, hn, List.map_cons, List.map_cons, htail, depthOf_eq hn, hid]
  unfold levels
  simp only [hleveled, List.map_map, List.filter_map, idSet]
  refine List.map_congr_left (fun d _ => ?_)
  rw [show Prod.snd ∘ (fun id => (depthOf t id, id)) = (id : NodeId → NodeId) from rfl, List.map_id]
  rfl

theorem mem_order_of_mem_levels [Quantity α] {id : NodeId} (h : ∀ id ∈ order, ∃ n, t.get? id = some n ∧ n.id = id) {ids : List NodeId}
    (hids : ids ∈ levels t order) (hi : id ∈ ids) : id ∈ order := by
  rw [levels_eq h] at hids
  obtain ⟨d, -, rfl⟩ := List.mem_map.mp hids
  exact List.mem_of_mem_filter hi

/-- A visible subtree holds its top and deeper nodes. -/
theorem eq_or_depthOf_lt (h : t.Spanning) (hl : t.Leveled) (ha : a < t.size) (hb : b ∈ t.visibleSubtree a) :
    b = a ∨ depthOf t a < depthOf t b := by
  by_cases hne : b = a
  · exact Or.inl hne
  · obtain ⟨n, hn⟩ := lt_size_iff.mp ha
    obtain ⟨m, hm⟩ := exists_node_of_mem_walkFrom hb
    rw [depthOf_eq hn, depthOf_eq hm]
    exact Or.inr (h.depth_lt_of_mem_subtree hl hn hm ((h.visibleSubtree_spec ha).2.subset hb) hne)

end Levels

variable {config : LayoutConfig Rat} {t t' : Tree Rat} {a b id : NodeId} {ids : List NodeId}

/-- The visible nodes of one depth are a level. -/
theorem peers_filter (h : t.Spanning) (hl : t.Leveled) (d : Nat) :
    Peers t (t.visiblePreOrder.filter (fun id => depthOf t id == d)) := by
  have hsize : ∀ a ∈ t.visiblePreOrder, a < t.size := by
    intro a ha
    obtain ⟨n, hn, -⟩ := h.visible_node ha
    exact lt_size_iff.mpr ⟨n, hn⟩
  refine ⟨h.nodup_visiblePreOrder.filter _, fun a ha => ?_, fun a ha b hb => ?_⟩
  · exact h.nodup_visibleSubtree (hsize a (List.mem_of_mem_filter ha))
  · obtain ⟨ha, had⟩ := List.mem_filter.mp ha
    obtain ⟨-, hbd⟩ := List.mem_filter.mp hb
    have hd : depthOf t b = depthOf t a := (beq_iff_eq.mp hbd).trans (beq_iff_eq.mp had).symm
    constructor
    · intro hmem
      rcases eq_or_depthOf_lt h hl (hsize a ha) hmem with he | hlt
      · exact he
      · omega
    · rintro rfl
      exact (h.visibleSubtree_spec (hsize b ha)).1.pending_subset List.mem_cons_self

/-! ## A sweep over all levels -/

theorem fromLeft_perm (t : Tree Rat) (ids : List NodeId) : (fromLeft t ids).Perm ids :=
  List.mergeSort_perm _ _

/-- The order of a sweep: by left edges, and in one place by ids. -/
theorem isLE_order_iff (x y : Rat) (a b : NodeId) :
    ((Quantity.order x y).then (compare a b)).isLE = true ↔ x < y ∨ (x = y ∧ a ≤ b) := by
  have horder : Quantity.order x y = if x < y then .lt else if x == y then .eq else .gt := rfl
  rw [horder]
  by_cases hlt : x < y
  · simp [hlt]
  · by_cases heq : x = y
    · subst heq
      simp [Nat.isLE_compare]
    · simp [hlt, heq]

/-- A node stands left of another, or in the same place with a lower id. -/
def LeftOf (t : Tree Rat) (a b : NodeId) : Prop := xOf t a < xOf t b ∨ (xOf t a = xOf t b ∧ a ≤ b)

instance : DecidableRel (LeftOf t) :=
  fun a b => inferInstanceAs (Decidable (xOf t a < xOf t b ∨ (xOf t a = xOf t b ∧ a ≤ b)))

theorem LeftOf.le (h : LeftOf t a b) : xOf t a ≤ xOf t b := by
  rcases h with h | ⟨h, -⟩
  · exact h.le
  · exact h.le

instance : IsTrans NodeId (LeftOf t) where
  trans a b c hab hbc := by
    rcases hab with hab | ⟨hab, hab'⟩
    · exact Or.inl (lt_of_lt_of_le hab hbc.le)
    · rcases hbc with hbc | ⟨hbc, hbc'⟩
      · exact Or.inl (hab ▸ hbc)
      · exact Or.inr ⟨hab.trans hbc, Nat.le_trans hab' hbc'⟩

instance : Std.Total (LeftOf t) where
  total a b := by
    rcases lt_trichotomy (xOf t a) (xOf t b) with h | h | h
    · exact Or.inl (Or.inl h)
    · rcases Nat.le_total a b with h' | h'
      · exact Or.inl (Or.inr ⟨h, h'⟩)
      · exact Or.inr (Or.inr ⟨h.symm, h'⟩)
    · exact Or.inr (Or.inl h)

instance : Std.Antisymm (LeftOf t) where
  antisymm a b hab hba := by
    rcases hab with hlt | ⟨heq, hab⟩
    · exact absurd hba.le (not_le.mpr hlt)
    · rcases hba with hlt | ⟨-, hba⟩
      · exact absurd heq hlt.ne'
      · exact Nat.le_antisymm hab hba

/-- The order of a sweep as an insertion sort. -/
theorem fromLeft_eq_insertionSort (t : Tree Rat) (ids : List NodeId) : fromLeft t ids = ids.insertionSort (LeftOf t) := by
  rw [← List.mergeSort_eq_insertionSort, fromLeft]
  congr 1
  funext a b
  rw [Bool.eq_iff_iff, isLE_order_iff, decide_eq_true_iff]
  rfl

theorem fromLeft_sorted (t : Tree Rat) (ids : List NodeId) : (fromLeft t ids).Pairwise (fun a b => xOf t a ≤ xOf t b) := by
  rw [fromLeft_eq_insertionSort]
  exact (List.pairwise_insertionSort (LeftOf t) ids).imp LeftOf.le

/-- Of two nodes one is clear of the other. -/
def Apart (config : LayoutConfig Rat) (t : Tree Rat) (a b : NodeId) : Prop := Clear config t a b ∨ Clear config t b a

instance : Std.Symm (Apart config t) := ⟨fun _ _ h => h.symm⟩

/-- Two nodes that neither move nor change their widths stay apart. -/
theorem Apart.of_xOf_eq (h : Apart config t a b) (hagrees : Agrees Node.offX t t') (ha : xOf t' a = xOf t a)
    (hb : xOf t' b = xOf t b) : Apart config t' a b := by
  unfold Apart Clear reach at *
  rw [ha, hb, widthOf_eq_of_agrees hagrees, widthOf_eq_of_agrees hagrees]
  exact h

/-- A sweep leaves the nodes of its level clear of each other, in the order from before it. -/
theorem fromLeft_clear (hp : Peers t ids) (hgap : 0 ≤ config.horizontalSpacing) (htol : 0 ≤ config.overlapTolerance)
    (hw : ∀ a ∈ ids, 0 ≤ widthOf t a) (shifts : Nat) :
    (fromLeft t ids).Pairwise (Clear config (sweepLevel config (fromLeft t ids) (t, shifts)).1) := by
  have hperm := fromLeft_perm t ids
  have hsorted := fromLeft_sorted t ids
  cases hf : fromLeft t ids with
  | nil => exact List.Pairwise.nil
  | cons first rest =>
    rw [hf] at hperm hsorted
    have hmem : ∀ i ∈ first :: rest, i ∈ ids := fun i hi => hperm.mem_iff.mp hi
    have hp' : Peers t (first :: rest) := ⟨hperm.nodup_iff.mpr hp.nodup, fun i hi => hp.subtree_nodup i (hmem i hi),
      fun i hi j hj => hp.mem_subtree_iff i (hmem i hi) j (hmem j hj)⟩
    have hstart : Sweeping config t [] first rest :=
      ⟨List.pairwise_singleton _ _, (List.pairwise_cons.mp hsorted).2, Or.inl (fun c hc => absurd hc List.not_mem_nil)⟩
    exact hstart.sweepLevel_clear hp' hgap htol (fun i hi => hw i (hmem i hi)) shifts

/-- A sweep leaves any two nodes of its level apart. -/
theorem sweepLevel_apart (hp : Peers t ids) (hgap : 0 ≤ config.horizontalSpacing) (htol : 0 ≤ config.overlapTolerance)
    (hw : ∀ a ∈ ids, 0 ≤ widthOf t a) (shifts : Nat) (ha : a ∈ ids) (hb : b ∈ ids) (hne : a ≠ b) :
    Apart config (sweepLevel config (fromLeft t ids) (t, shifts)).1 a b := by
  have hperm := fromLeft_perm t ids
  have hapart : (fromLeft t ids).Pairwise (Apart config (sweepLevel config (fromLeft t ids) (t, shifts)).1) :=
    (fromLeft_clear hp hgap htol hw shifts).imp Or.inl
  exact hapart.forall (hperm.mem_iff.mpr ha) (hperm.mem_iff.mpr hb) hne

/-- A sweep over a level moves nothing but the visible subtrees of its nodes. -/
theorem xOf_sweepLevel (config : LayoutConfig Rat) (hnodup : ∀ a ∈ ids, (t.visibleSubtree a).Nodup)
    (hout : ∀ a ∈ ids, b ∉ t.visibleSubtree a)
    (shifts : Nat) : xOf (sweepLevel config ids (t, shifts)).1 b = xOf t b := by
  induction ids generalizing t shifts with
  | nil => rfl
  | cons left ids ih =>
    cases ids with
    | nil => rfl
    | cons right rest =>
      obtain ⟨-, hnodup⟩ := List.forall_mem_cons.mp hnodup
      obtain ⟨-, hout⟩ := List.forall_mem_cons.mp hout
      simp only [sweepLevel]
      split
      · have hagrees := shiftSubtree_agrees t right (deficit config t left right)
        rw [ih, xOf_shiftSubtree (hnodup right List.mem_cons_self), if_neg (hout right List.mem_cons_self)]
        · intro a ha
          rw [visibleSubtree_eq_of_agrees hagrees]
          exact hnodup a ha
        · intro a ha
          rw [visibleSubtree_eq_of_agrees hagrees]
          exact hout a ha
      · exact ih hnodup hout shifts

/-- The levels still to come leave alone what lies below none of their nodes. -/
theorem xOf_foldl_sweepNext (levels : List (List NodeId)) (hp : ∀ ids ∈ levels, Peers t ids)
    (hout : ∀ ids ∈ levels, ∀ a ∈ ids, b ∉ t.visibleSubtree a) (shifts : Nat) :
    xOf (levels.foldl (sweepNext config) (t, shifts)).1 b = xOf t b := by
  induction levels generalizing t shifts with
  | nil => rfl
  | cons ids levels ih =>
    obtain ⟨hids, hp⟩ := List.forall_mem_cons.mp hp
    obtain ⟨houtIds, hout⟩ := List.forall_mem_cons.mp hout
    have hperm := fromLeft_perm t ids
    have hagrees := sweepLevel_agrees config (fromLeft t ids) t shifts
    have hstep := xOf_sweepLevel config (fun a ha => hids.subtree_nodup a (hperm.mem_iff.mp ha))
      (fun a ha => houtIds a (hperm.mem_iff.mp ha)) shifts
    rw [List.foldl_cons, ← hstep]
    refine ih (fun level hlevel => (hp level hlevel).of_agrees hagrees) (fun level hlevel a ha => ?_) _
    rw [visibleSubtree_eq_of_agrees hagrees]
    exact hout level hlevel a ha

/-- A sweep leaves any two nodes of a level apart, whichever level it is. -/
theorem sweep_apart (levels : List (List NodeId)) (hp : ∀ ids ∈ levels, Peers t ids)
    (hdown : levels.Pairwise (fun upper lower => ∀ b ∈ upper, ∀ a ∈ lower, b ∉ t.visibleSubtree a))
    (hgap : 0 ≤ config.horizontalSpacing) (htol : 0 ≤ config.overlapTolerance)
    (hw : ∀ ids ∈ levels, ∀ a ∈ ids, 0 ≤ widthOf t a) (shifts : Nat) :
    ∀ ids ∈ levels, ∀ a ∈ ids, ∀ b ∈ ids, a ≠ b → Apart config (levels.foldl (sweepNext config) (t, shifts)).1 a b := by
  induction levels generalizing t shifts with
  | nil => exact fun ids hids => absurd hids List.not_mem_nil
  | cons level levels ih =>
    obtain ⟨hlevel, hp⟩ := List.forall_mem_cons.mp hp
    obtain ⟨hupper, hdown⟩ := List.pairwise_cons.mp hdown
    obtain ⟨hwLevel, hw⟩ := List.forall_mem_cons.mp hw
    have hagrees := sweepLevel_agrees config (fromLeft t level) t shifts
    have hp' : ∀ ids ∈ levels, Peers (sweepLevel config (fromLeft t level) (t, shifts)).1 ids :=
      fun ids hids => (hp ids hids).of_agrees hagrees
    intro ids hids a ha b hb hne
    rw [List.foldl_cons]
    rcases List.mem_cons.mp hids with rfl | hids
    -- The later levels lie deeper, so nothing they shift has a node of this level below it.
    · have hapart := sweepLevel_apart hlevel hgap htol hwLevel shifts ha hb hne
      have hstay : ∀ c ∈ ids, xOf (levels.foldl (sweepNext config) (sweepNext config (t, shifts) ids)).1 c =
          xOf (sweepLevel config (fromLeft t ids) (t, shifts)).1 c := by
        intro c hc
        refine xOf_foldl_sweepNext levels hp' (fun lower hlower a ha => ?_) _
        rw [visibleSubtree_eq_of_agrees hagrees]
        exact hupper lower hlower c hc a ha
      exact hapart.of_xOf_eq (foldl_sweepNext_agrees config levels _ _) (hstay a ha) (hstay b hb)
    · refine ih hp' ?_ ?_ _ ids hids a ha b hb hne
      · refine hdown.imp (fun {upper lower} h b hb a ha => ?_)
        rw [visibleSubtree_eq_of_agrees hagrees]
        exact h b hb a ha
      · intro ids hids a ha
        rw [widthOf_eq_of_agrees hagrees]
        exact hw ids hids a ha

/-- A visible level is what there is of one depth. -/
theorem mem_levels_iff {α : Type} [Quantity α] {t : Tree α} {ids : List NodeId} (h : t.Spanning) :
    ids ∈ levels t t.visiblePreOrder ↔
      ∃ i ∈ t.visiblePreOrder, ids = t.visiblePreOrder.filter (fun id => depthOf t id == depthOf t i) := by
  rw [levels_eq (fun _ hid => h.visible_node hid), List.mem_map]
  constructor
  · rintro ⟨d, hd, rfl⟩
    obtain ⟨i, hi, rfl⟩ := List.mem_map.mp (mem_idSet.mp hd)
    exact ⟨i, hi, rfl⟩
  · rintro ⟨i, hi, rfl⟩
    exact ⟨depthOf t i, mem_idSet.mpr (List.mem_map_of_mem hi), rfl⟩

theorem peers_levels (h : t.Spanning) (hl : t.Leveled) : ∀ ids ∈ levels t t.visiblePreOrder, Peers t ids := by
  intro ids hids
  obtain ⟨i, -, rfl⟩ := (mem_levels_iff h).mp hids
  exact peers_filter h hl (depthOf t i)

/-- No node of a level lies below one of a level further down. -/
theorem levels_downward {α : Type} [Quantity α] {t : Tree α} (h : t.Spanning) (hl : t.Leveled) :
    (levels t t.visiblePreOrder).Pairwise (fun upper lower => ∀ b ∈ upper, ∀ a ∈ lower, b ∉ t.visibleSubtree a) := by
  rw [levels_eq (fun _ hid => h.visible_node hid)]
  refine List.pairwise_map.mpr ((pairwise_lt_idSet _).imp (fun {d d'} hlt i hi j hj hbelow => ?_))
  obtain ⟨-, hid⟩ := List.mem_filter.mp hi
  obtain ⟨hj, hjd⟩ := List.mem_filter.mp hj
  rw [beq_iff_eq] at hid hjd
  obtain ⟨n, hn, -⟩ := h.visible_node hj
  rcases eq_or_depthOf_lt h hl (lt_size_iff.mpr ⟨n, hn⟩) hbelow with he | hdeeper
  · rw [he] at hid
    exact absurd (hid.symm.trans hjd) (Nat.ne_of_lt hlt)
  · rw [hid, hjd] at hdeeper
    exact absurd hlt (Nat.lt_asymm hdeeper)

theorem visible_of_mem_level {α : Type} [Quantity α] {t : Tree α} {ids : List NodeId} {i : NodeId} (h : t.Spanning)
    (hids : ids ∈ levels t t.visiblePreOrder) (hi : i ∈ ids) : i ∈ t.visiblePreOrder :=
  mem_order_of_mem_levels (fun _ hid => h.visible_node hid) hids hi

/-- One sweep over the visible levels of a tree leaves any two visible nodes of one depth apart. -/
theorem sweep_levels_apart (h : t.Spanning) (hl : t.Leveled) (hgap : 0 ≤ config.horizontalSpacing)
    (htol : 0 ≤ config.overlapTolerance) (hw : ∀ i ∈ t.visiblePreOrder, 0 ≤ widthOf t i) (ha : a ∈ t.visiblePreOrder)
    (hb : b ∈ t.visiblePreOrder) (hne : a ≠ b) (hd : depthOf t a = depthOf t b) :
    Apart config (sweep config (levels t t.visiblePreOrder) t).1 a b := by
  have hlevel : t.visiblePreOrder.filter (fun id => depthOf t id == depthOf t a) ∈ levels t t.visiblePreOrder :=
    (mem_levels_iff h).mpr ⟨a, ha, rfl⟩
  exact sweep_apart _ (peers_levels h hl) (levels_downward h hl) hgap htol
    (fun ids hids i hi => hw i (visible_of_mem_level h hids hi)) 0 _ hlevel a (List.mem_filter.mpr ⟨ha, beq_self_eq_true _⟩) b
    (List.mem_filter.mpr ⟨hb, beq_iff_eq.mpr hd.symm⟩) hne

/-! ## Before the rounds -/

/-- Given the standard sizes, every visible node has a width. -/
theorem widthOf_applyDefaultSizes_pos {order : List NodeId} (h : order.Nodup) (hwidth : 0 < config.nodeWidth)
    (ha : a ∈ order) (hnode : ∃ n, t.get? a = some n) : 0 < widthOf (applyDefaultSizes config order t) a := by
  obtain ⟨n, hn⟩ := hnode
  have hget : (applyDefaultSizes config order t).get? a =
      if a ∈ order then (t.get? a).map (applyDefaultSize config) else t.get? a :=
    get?_foldl_modify (fun _ => applyDefaultSize config) order h t a
  rw [if_pos ha, hn, Option.map_some] at hget
  have hw : widthOf (applyDefaultSizes config order t) a = if n.width ≤ 0 then config.nodeWidth else n.width := by
    unfold widthOf
    rw [hget]
    simp [applyDefaultSize, Quantity.le, Quantity.zero, Quantity.ofNat]
  rw [hw]
  split
  · exact hwidth
  · rename_i hpos
    exact not_le.mp hpos

/-- Nodes are placed on the height of their level. -/
theorem y_foldr_placeNode {α : Type} [Quantity α] {config : LayoutConfig α} {widths places : Table α} {t : Tree α}
    {order : List NodeId} {n : Node α} (ha : a ∈ order)
    (hn : (order.foldr (placeNode config widths places) t).get? a = some n) :
    n.y = Quantity.ofNat n.depth * config.levelHeight := by
  induction order with
  | nil => exact absurd ha List.not_mem_nil
  | cons id order ih =>
    rw [List.foldr_cons, placeNode] at hn
    cases hm : (order.foldr (placeNode config widths places) t).get? id with
    | none =>
      rw [hm] at hn
      rcases List.mem_cons.mp ha with rfl | ha
      · rw [hm] at hn
        cases hn
      · exact ih ha hn
    | some m =>
      rw [hm] at hn
      simp only [get?_modify] at hn
      by_cases hid : id = a
      · subst hid
        rw [if_pos rfl, hm, Option.map_some, Option.some.injEq] at hn
        subst hn
        rfl
      · rw [if_neg hid] at hn
        exact ih ((List.mem_cons.mp ha).resolve_left (fun e => hid e.symm)) hn

theorem levels_eq_of_agrees {α : Type} [Quantity α] {t t' : Tree α} (h : Agrees Node.offX t t') (order : List NodeId) :
    levels t' order = levels t order := by
  have hnodes : (t'.nodesAt order).map (fun n => (n.depth, n.id)) = (t.nodesAt order).map (fun n => (n.depth, n.id)) := by
    have hview : Agrees (fun n : Node α => (n.depth, n.id)) t t' := h.view (fun n => (n.depth, n.id)) (fun _ => rfl)
    unfold nodesAt
    rw [List.map_filterMap, List.map_filterMap]
    exact List.filterMap_congr (fun id _ => hview.2 id)
  unfold levels
  simp only [hnodes]

/-! ## The layout -/

/-- A layout ends with a sweep, however many rounds there were. What the sweep starts from shows the same nodes on the same
levels as the plan, each with a width and on the height of its level. -/
theorem layout_last_sweep (e : Engine Rat) (p : Plan Rat) (hs : p.tree.Spanning) (hwidth : 0 < e.config.nodeWidth) :
    ∃ u, Agrees Node.bare p.tree u ∧ (e.layout p).2.1.tree = (sweep e.config (levels u u.visiblePreOrder) u).1 ∧
      (∀ i ∈ u.visiblePreOrder, 0 ≤ widthOf u i) ∧
      ∀ i ∈ u.visiblePreOrder, ∀ n, u.get? i = some n → n.y = (n.depth : Rat) * e.config.levelHeight := by
  have hsized := applyDefaultSizes_agrees e.config p.tree.visiblePreOrder p.tree
  have hplaced := place_agrees e.config p.tree.visiblePreOrder
    (applyDefaultSizes e.config p.tree.visiblePreOrder p.tree)
  generalize htp : place e.config p.tree.visiblePreOrder (applyDefaultSizes e.config p.tree.visiblePreOrder p.tree) = tp
    at hplaced
  -- `u` is the tree before the last sweep; the levels are taken from the placed tree, which has the same ones.
  obtain ⟨u, hu, hlast⟩ := resolveRounds_last_sweep e.config (levels tp p.tree.visiblePreOrder)
    (max e.config.maxOverlapIterations 1 - 1) tp { visibleNodes := p.tree.visiblePreOrder.length }
  have hbare : Agrees Node.bare p.tree u :=
    ((hsized.view Node.unplaced (fun _ => rfl)).trans (hplaced.view Node.unsized (fun _ => rfl))).trans
      (hu.view Node.bare (fun _ => rfl))
  have horder : u.visiblePreOrder = p.tree.visiblePreOrder :=
    visiblePreOrder_congr (hbare.view Node.visibleChildren (fun _ => rfl))
  refine ⟨u, hbare, ?_, fun i hi => ?_, fun i hi n hn => ?_⟩
  · rw [horder, levels_eq_of_agrees hu, ← hlast, ← htp]
    exact tree_layout e p
  · rw [horder] at hi
    obtain ⟨n, hn, -⟩ := hs.visible_node hi
    have hpos := widthOf_applyDefaultSizes_pos hs.nodup_visiblePreOrder hwidth hi ⟨n, hn⟩
    rw [widthOf_eq_of_agrees hu, widthOf_congr (hplaced.view Node.width (fun _ => rfl))]
    exact hpos.le
  · rw [horder] at hi
    have hview : Agrees (fun n : Node Rat => (n.y, n.depth)) tp u := hu.view (fun n => (n.y, n.depth)) (fun _ => rfl)
    obtain ⟨m, hm, hyd⟩ := hview.symm.get? hn
    obtain ⟨hy, hd⟩ := Prod.mk.inj hyd
    rw [← hy, ← hd]
    rw [← htp] at hm
    exact y_foldr_placeNode hi hm

/-- After a layout, converged or not, any two visible nodes of one level are apart by the gap, but for the tolerance, and each
stands on the height of its level. The layout changes neither what is visible nor which level it is on. -/
theorem layout_separates_levels (e : Engine Rat) (p : Plan Rat) (hs : p.tree.Spanning) (hl : p.tree.Leveled)
    (hwidth : 0 < e.config.nodeWidth) (hgap : 0 ≤ e.config.horizontalSpacing) (htol : 0 ≤ e.config.overlapTolerance) :
    let t := (e.layout p).2.1.tree
    t.visiblePreOrder = p.tree.visiblePreOrder ∧
      (∀ i ∈ t.visiblePreOrder, ∀ j ∈ t.visiblePreOrder, i ≠ j → ∀ a b, t.get? i = some a → t.get? j = some b →
        a.depth = b.depth →
          a.x + a.width + e.config.horizontalSpacing ≤ b.x + e.config.overlapTolerance ∨
          b.x + b.width + e.config.horizontalSpacing ≤ a.x + e.config.overlapTolerance) ∧
      (∀ i ∈ t.visiblePreOrder, ∀ a, t.get? i = some a → a.y = (a.depth : Rat) * e.config.levelHeight) := by
  intro t
  obtain ⟨u, hbare, hlast, hw, hheight⟩ := layout_last_sweep e p hs hwidth
  have ht : t = (sweep e.config (levels u u.visiblePreOrder) u).1 := hlast
  have hswept : Agrees Node.offX u t := ht ▸ sweep_agrees e.config _ u
  have horder : u.visiblePreOrder = p.tree.visiblePreOrder :=
    visiblePreOrder_congr (hbare.view Node.visibleChildren (fun _ => rfl))
  have hsame : t.visiblePreOrder = u.visiblePreOrder :=
    visiblePreOrder_congr (hswept.view Node.visibleChildren (fun _ => rfl))
  have hspan : u.Spanning := hs.of_agrees (hbare.view Node.links (fun _ => rfl))
  have hlevel : u.Leveled := hl.of_agrees (hbare.view (fun n => (n.children, n.depth)) (fun _ => rfl))
  refine ⟨hsame.trans horder, fun i hi j hj hne a b ha hb hd => ?_, fun i hi a ha => ?_⟩
  · rw [hsame] at hi hj
    have hdu : depthOf u i = depthOf u j := by
      have hdepth := depthOf_eq_of_agrees (hswept.view Node.depth (fun _ => rfl))
      rw [← hdepth, ← hdepth, depthOf_eq ha, depthOf_eq hb, hd]
    have hapart := sweep_levels_apart hspan hlevel hgap htol hw hi hj hne hdu
    rw [← ht] at hapart
    have hx : ∀ {k n}, t.get? k = some n → xOf t k = n.x ∧ widthOf t k = n.width := by
      intro k n hn
      simp [xOf, widthOf, hn]
    unfold Apart Clear reach at hapart
    rwa [(hx ha).1, (hx ha).2, (hx hb).1, (hx hb).2] at hapart
  · rw [hsame] at hi
    have hview : Agrees (fun n : Node Rat => (n.y, n.depth)) u t := hswept.view (fun n => (n.y, n.depth)) (fun _ => rfl)
    obtain ⟨n, hn, hyd⟩ := hview.symm.get? ha
    obtain ⟨hy, hd⟩ := Prod.mk.inj hyd
    rw [← hy, ← hd]
    exact hheight i hi n hn

/-- The two children of a root, laid out with the standard sizes. -/
theorem layout_separates_levels_standard :
    let row (level : Nat) : Row := ⟨1, level, "", "", .unknown, none, none⟩
    let p : Plan Rat := Plan.parsed .physical "" (Tree.ofRows [row 0, row 1, row 1])
    let t := ((Engine.new LayoutConfig.standard).layout p).2.1.tree
    t.visiblePreOrder = [0, 1, 2] ∧
      ∀ a b, t.get? 1 = some a → t.get? 2 = some b → a.depth = b.depth →
        a.x + a.width + 24 ≤ b.x + 1 / 2 ∨ b.x + b.width + 24 ≤ a.x + 1 / 2 := by
  intro row p t
  have hp : p.tree = Tree.ofRows [row 0, row 1, row 1] := Plan.tree_parsed _ _ _
  have h : p.tree.WellFormed := by
    rw [hp]
    exact Outline.ofRows_wellFormed _
  have htol : (0 : Rat) ≤ (LayoutConfig.standard : LayoutConfig Rat).overlapTolerance := by
    change (0 : Rat) ≤ 1 / 2
    norm_num
  obtain ⟨hvisible, hapart, -⟩ := layout_separates_levels (Engine.new LayoutConfig.standard) p h.toSpanning h.leveled
    (by decide) (by decide) htol
  have hthree : t.visiblePreOrder = [0, 1, 2] := by
    rw [hvisible, hp]
    decide
  refine ⟨hthree, fun a b ha hb hd => ?_⟩
  have hmem : ∀ i ∈ [1, 2], i ∈ t.visiblePreOrder := fun i hi => hthree ▸ List.mem_cons_of_mem 0 hi
  exact hapart 1 (hmem 1 (by simp)) 2 (hmem 2 (by simp)) (by decide) a b ha hb hd

end DaxPlan.Layout
