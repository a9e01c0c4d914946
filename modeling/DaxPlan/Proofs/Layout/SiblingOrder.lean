import DaxPlan.Proofs.Layout.Centres

/-!
# The order of siblings

The first placement hands out slots to the children of a node in their order, but what counts afterwards is where the nodes
stand: a sweep takes a level from left to right, and shifts the later node of two. A sweep therefore keeps two siblings in the
order in which they stand (`Sweepable.sweep_lt`), whichever it is: siblings are of one level, and every shift on another level
moves both of them or neither (`Siblings.alike`).

So the order of the children is kept where they stand in order after the first placement and keep standing so between sweeps. That
is so of leaves, which putting parents back over their children does not move; of any children if there is one round and the later
one is not much wider; and where nothing is shifted at all (`layout_keeps_sibling_order`). It is not so in general: a wide node
whose children stand far to the left of its slot sticks out to the left, beyond an earlier narrow sibling, and the sweep then
takes it for the first of the two (`layout_once_lt`, `layout_swaps_siblings`).
-/

namespace DaxPlan.Layout

open DaxPlan.Tree

variable {config : LayoutConfig Rat} {t t' : Tree Rat} {a b c d i : NodeId} {n : Node Rat} {ids : List NodeId}

/-! ## One sweep -/

/-- Two nodes that lie below the same nodes of a level are moved by the same amount when it is swept. -/
theorem sweepLevel_alike (config : LayoutConfig Rat) (hnodup : ∀ p ∈ ids, (t.visibleSubtree p).Nodup)
    (halike : ∀ p ∈ ids, (a ∈ t.visibleSubtree p ↔ b ∈ t.visibleSubtree p)) (shifts : Nat) :
    xOf (sweepLevel config ids (t, shifts)).1 b - xOf (sweepLevel config ids (t, shifts)).1 a = xOf t b - xOf t a := by
  induction ids generalizing t shifts with
  | nil => rfl
  | cons left ids ih =>
    cases ids with
    | nil => rfl
    | cons right rest =>
      obtain ⟨-, hnodup⟩ := List.forall_mem_cons.mp hnodup
      obtain ⟨-, halike⟩ := List.forall_mem_cons.mp halike
      simp only [sweepLevel]
      split
      · have hagrees := shiftSubtree_agrees t right (deficit config t left right)
        rw [ih]
        · rw [xOf_shiftSubtree (hnodup right List.mem_cons_self), xOf_shiftSubtree (hnodup right List.mem_cons_self)]
          by_cases ha : a ∈ t.visibleSubtree right
          · rw [if_pos ha, if_pos ((halike right List.mem_cons_self).mp ha)]
            ring
          · rw [if_neg ha, if_neg (fun hb => ha ((halike right List.mem_cons_self).mpr hb))]
        · intro p hp
          rw [visibleSubtree_eq_of_agrees hagrees]
          exact hnodup p hp
        · intro p hp
          rw [visibleSubtree_eq_of_agrees hagrees]
          exact halike p hp
      · exact ih hnodup halike shifts

/-- Of two nodes of a level the one further left is clear of the other once the level is swept. -/
theorem sweepNext_keeps (hp : Peers t ids) (hgap : 0 ≤ config.horizontalSpacing) (htol : 0 ≤ config.overlapTolerance)
    (hw : ∀ a ∈ ids, 0 ≤ widthOf t a) (ha : a ∈ ids) (hb : b ∈ ids) (hab : xOf t a < xOf t b) (shifts : Nat) :
    Clear config (sweepNext config (t, shifts) ids).1 a b := by
  have hperm := fromLeft_perm t ids
  have hordered : (fromLeft t ids).Pairwise (fun a b =>
      (xOf t a < xOf t b → Clear config (sweepNext config (t, shifts) ids).1 a b) ∧
        (xOf t b < xOf t a → Clear config (sweepNext config (t, shifts) ids).1 b a)) := by
    refine ((fromLeft_clear hp hgap htol hw shifts).and (fromLeft_sorted t ids)).imp (fun {a b} hab => ?_)
    exact ⟨fun _ => hab.1, fun hlt => absurd hab.2 (not_le.mpr hlt)⟩
  have hsymm : Std.Symm (fun a b => (xOf t a < xOf t b → Clear config (sweepNext config (t, shifts) ids).1 a b) ∧
      (xOf t b < xOf t a → Clear config (sweepNext config (t, shifts) ids).1 b a)) := ⟨fun _ _ h => h.symm⟩
  have hne : a ≠ b := fun he => absurd (he ▸ hab) (lt_irrefl _)
  exact (hordered.forall (hperm.mem_iff.mpr ha) (hperm.mem_iff.mpr hb) hne).1 hab

theorem Clear.of_xOf_eq (h : Clear config t a b) (hagrees : Agrees Node.offX t t') (ha : xOf t' a = xOf t a)
    (hb : xOf t' b = xOf t b) : Clear config t' a b := by
  unfold Clear reach at *
  rw [ha, hb, widthOf_eq_of_agrees hagrees]
  exact h

/-- Of two nodes of a level the one further left is clear of the other once all levels are swept, if every other level moves both
or neither. -/
theorem foldl_sweepNext_keeps (levels : List (List NodeId)) (hp : ∀ ids ∈ levels, Peers t ids)
    (hdown : levels.Pairwise (fun upper lower => ∀ b ∈ upper, ∀ a ∈ lower, b ∉ t.visibleSubtree a))
    (hgap : 0 ≤ config.horizontalSpacing) (htol : 0 ≤ config.overlapTolerance)
    (hw : ∀ ids ∈ levels, ∀ a ∈ ids, 0 ≤ widthOf t a) (hlevel : ∃ ids ∈ levels, a ∈ ids ∧ b ∈ ids)
    (halike : ∀ ids ∈ levels, (a ∈ ids ∧ b ∈ ids) ∨ ∀ p ∈ ids, (a ∈ t.visibleSubtree p ↔ b ∈ t.visibleSubtree p))
    (hab : xOf t a < xOf t b) (shifts : Nat) : Clear config (levels.foldl (sweepNext config) (t, shifts)).1 a b := by
  induction levels generalizing t shifts with
  | nil =>
    obtain ⟨ids, hids, -⟩ := hlevel
    exact absurd hids List.not_mem_nil
  | cons level levels ih =>
    obtain ⟨hplevel, hp⟩ := List.forall_mem_cons.mp hp
    obtain ⟨hupper, hdown⟩ := List.pairwise_cons.mp hdown
    obtain ⟨hwlevel, hw⟩ := List.forall_mem_cons.mp hw
    obtain ⟨hhere, halike⟩ := List.forall_mem_cons.mp halike
    have hagrees : Agrees Node.offX t (sweepNext config (t, shifts) level).1 :=
      sweepLevel_agrees config (fromLeft t level) t shifts
    have hp' : ∀ ids ∈ levels, Peers (sweepNext config (t, shifts) level).1 ids :=
      fun ids hids => (hp ids hids).of_agrees hagrees
    have hsame := visibleSubtree_eq_of_agrees hagrees
    rw [List.foldl_cons]
    by_cases hown : a ∈ level ∧ b ∈ level
    · -- the levels still to come leave both alone
      obtain ⟨ha, hb⟩ := hown
      have hclear := sweepNext_keeps hplevel hgap htol hwlevel ha hb hab shifts
      have hstay : ∀ c ∈ level, xOf (levels.foldl (sweepNext config) (sweepNext config (t, shifts) level)).1 c =
          xOf (sweepNext config (t, shifts) level).1 c :=
        fun c hc => xOf_foldl_sweepNext levels hp' (fun lower hlower p hp => hsame p ▸ hupper lower hlower c hc p hp) _
      exact hclear.of_xOf_eq (foldl_sweepNext_agrees config levels _ _) (hstay a ha) (hstay b hb)
    · -- a sweep of another level shifts both by the same or neither
      have hmoved := hhere.resolve_left hown
      have hdistance : xOf (sweepNext config (t, shifts) level).1 b - xOf (sweepNext config (t, shifts) level).1 a =
          xOf t b - xOf t a :=
        sweepLevel_alike config (fun p hp => hplevel.subtree_nodup p ((fromLeft_perm t level).mem_iff.mp hp))
          (fun p hp => hmoved p ((fromLeft_perm t level).mem_iff.mp hp)) shifts
      have hlater : ∃ ids ∈ levels, a ∈ ids ∧ b ∈ ids := by
        obtain ⟨ids, hids, ha, hb⟩ := hlevel
        rcases List.mem_cons.mp hids with rfl | hids
        · exact absurd ⟨ha, hb⟩ hown
        · exact ⟨ids, hids, ha, hb⟩
      refine ih hp' ?_ ?_ hlater ?_ (by linarith) _
      · exact hdown.imp (fun {upper lower} h b hb a ha => hsame a ▸ h b hb a ha)
      · intro ids hids a ha
        rw [widthOf_eq_of_agrees hagrees]
        exact hw ids hids a ha
      · refine fun ids hids => (halike ids hids).imp_right (fun h p hp => ?_)
        rw [hsame]
        exact h p hp

/-- What a sweep over all levels asks for: a tree, levels that match it, no negative widths, and no negative gap or tolerance. -/
structure Sweepable (config : LayoutConfig Rat) (t : Tree Rat) : Prop where
  spanning : t.Spanning
  leveled : t.Leveled
  gap : 0 ≤ config.horizontalSpacing
  tolerance : 0 ≤ config.overlapTolerance
  widths : ∀ i ∈ t.visiblePreOrder, 0 ≤ widthOf t i

theorem Sweepable.of_agrees (h : Sweepable config t) (ha : Agrees Node.offX t t') : Sweepable config t' := by
  have horder : t'.visiblePreOrder = t.visiblePreOrder := visiblePreOrder_congr (ha.view Node.visibleChildren (fun _ => rfl))
  refine ⟨h.spanning.of_agrees (ha.view Node.links (fun _ => rfl)),
    h.leveled.of_agrees (ha.view (fun n => (n.children, n.depth)) (fun _ => rfl)), h.gap, h.tolerance, fun i hi => ?_⟩
  rw [widthOf_eq_of_agrees ha]
  exact h.widths i (horder ▸ hi)

/-- Two children that a visible node shows. -/
def Siblings (t : Tree Rat) (c d : NodeId) : Prop :=
  ∃ i ∈ t.visiblePreOrder, ∃ n, t.get? i = some n ∧ c ∈ n.visibleChildren ∧ d ∈ n.visibleChildren

theorem Siblings.of_agrees (h : Siblings t c d) (ha : Agrees Node.visibleChildren t t') : Siblings t' c d := by
  obtain ⟨i, hi, n, hn, hc, hd⟩ := h
  obtain ⟨n', hn', he⟩ := ha.get? hn
  refine ⟨i, ?_, n', hn', he ▸ hc, he ▸ hd⟩
  rw [visiblePreOrder_congr ha]
  exact hi

/-- Siblings are of one level, and below the same nodes of every other level. -/
theorem Siblings.alike (h : Siblings t c d) (hs : t.Spanning) (hl : t.Leveled) :
    c ∈ t.visiblePreOrder ∧ d ∈ t.visiblePreOrder ∧ depthOf t d = depthOf t c ∧
      ∀ p ∈ t.visiblePreOrder, depthOf t p ≠ depthOf t c → (c ∈ t.visibleSubtree p ↔ d ∈ t.visibleSubtree p) := by
  obtain ⟨i, hi, n, hn, hc, hd⟩ := h
  have hvisible : ∀ e ∈ n.visibleChildren, e ∈ t.visiblePreOrder := fun e he => hs.visible_child hi hn he
  have hdepth : ∀ e ∈ n.visibleChildren, depthOf t e = n.depth + 1 := by
    intro e he
    obtain ⟨m, hm, -⟩ := hs.visible_node (hvisible e he)
    rw [depthOf_eq hm]
    exact hl i n e m hn (n.visibleChildren_sublist.subset he) hm
  refine ⟨hvisible c hc, hvisible d hd, (hdepth d hd).trans (hdepth c hc).symm, fun p hp hlevel => ?_⟩
  have hne : ∀ e ∈ n.visibleChildren, e ≠ p := by
    rintro e he rfl
    exact hlevel ((hdepth e he).trans (hdepth c hc).symm)
  rw [hs.child_below_iff hp hi hn hc (hne c hc), hs.child_below_iff hp hi hn hd (hne d hd)]

/-- A sweep over all levels leaves of two siblings the one further left clear of the other. -/
theorem Sweepable.sweep_keeps (h : Sweepable config t) (hsiblings : Siblings t c d) (hcd : xOf t c < xOf t d) :
    Clear config (sweep config (levels t t.visiblePreOrder) t).1 c d := by
  obtain ⟨hc, hd, hsame, halike⟩ := hsiblings.alike h.spanning h.leveled
  refine foldl_sweepNext_keeps _ (peers_levels h.spanning h.leveled) (levels_downward h.spanning h.leveled) h.gap h.tolerance
    (fun ids hids a ha => h.widths a (visible_of_mem_level h.spanning hids ha)) ?_ (fun ids hids => ?_) hcd 0
  · exact ⟨_, (mem_levels_iff h.spanning).mpr ⟨c, hc, rfl⟩, List.mem_filter.mpr ⟨hc, beq_self_eq_true _⟩,
      List.mem_filter.mpr ⟨hd, beq_iff_eq.mpr hsame⟩⟩
  · obtain ⟨j, hj, rfl⟩ := (mem_levels_iff h.spanning).mp hids
    by_cases hlevel : depthOf t c = depthOf t j
    · exact Or.inl ⟨List.mem_filter.mpr ⟨hc, beq_iff_eq.mpr hlevel⟩,
        List.mem_filter.mpr ⟨hd, beq_iff_eq.mpr (hsame.trans hlevel)⟩⟩
    · refine Or.inr (fun p hp => ?_)
      obtain ⟨hp, hpj⟩ := List.mem_filter.mp hp
      exact halike p hp (fun he => hlevel (he.symm.trans (beq_iff_eq.mp hpj)))

/-- A node that another is clear of stands further right, if the tolerance is less than the width of the other and the gap. -/
theorem Clear.lt (h : Clear config t a b) (hwide : config.overlapTolerance < widthOf t a + config.horizontalSpacing) :
    xOf t a < xOf t b := by
  unfold Clear reach at h
  linarith

/-- So a sweep over all levels leaves siblings in the order in which they stand. -/
theorem Sweepable.sweep_lt (h : Sweepable config t) (hsiblings : Siblings t c d)
    (hwide : config.overlapTolerance < widthOf t c + config.horizontalSpacing) (hcd : xOf t c < xOf t d) :
    xOf (sweep config (levels t t.visiblePreOrder) t).1 c < xOf (sweep config (levels t t.visiblePreOrder) t).1 d := by
  refine (h.sweep_keeps hsiblings hcd).lt ?_
  rwa [widthOf_eq_of_agrees (sweep_agrees config _ t)]

/-! ## Rounds -/

/-- The last round is a sweep. -/
theorem resolveRounds_last (config : LayoutConfig Rat) (levels : List (List NodeId)) (t : Tree Rat) (stats : Stats) :
    (resolveRounds config levels 0 t stats).1 = (sweep config levels t).1 := by
  rw [resolveRounds]
  dsimp only
  split <;> rfl

/-- Putting nodes over their children leaves nodes alone that show none. -/
theorem xOf_recenterNode (hnone : visibleChildren t a = []) (i : NodeId) : xOf (recenterNode t i) a = xOf t a := by
  unfold recenterNode
  by_cases hia : i = a
  · subst hia
    rw [childCenters, hnone]
    rfl
  · split
    · rfl
    · rw [xOf, get?_modify, if_neg hia, xOf]

theorem xOf_foldl_recenterNode (hnone : visibleChildren t a = []) (ids : List NodeId) :
    xOf (ids.foldl recenterNode t) a = xOf t a := by
  induction ids generalizing t with
  | nil => rfl
  | cons i ids ih =>
    have hbare : Agrees Node.bare t (recenterNode t i) := (recenterNode_agrees t i).view Node.bare (fun _ => rfl)
    rw [List.foldl_cons, ih ((visibleChildren_congr hbare a).trans hnone), xOf_recenterNode hnone]

theorem xOf_recenter (hnone : visibleChildren t a = []) (levels : List (List NodeId)) :
    xOf (recenter levels t) a = xOf t a := by
  unfold recenter
  induction levels.reverse generalizing t with
  | nil => rfl
  | cons ids rest ih =>
    have hbare : Agrees Node.bare t (ids.foldl recenterNode t) :=
      (Agrees.foldl _ recenterNode_agrees ids t).view Node.bare (fun _ => rfl)
    rw [List.foldl_cons, ih ((visibleChildren_congr hbare a).trans hnone), xOf_foldl_recenterNode hnone]

/-- Rounds leave of two siblings that show no children the one further left clear of the other. -/
theorem Sweepable.rounds_keep (h : Sweepable config t) (hsiblings : Siblings t c d) (hc : visibleChildren t c = [])
    (hd : visibleChildren t d = []) (hwide : config.overlapTolerance < widthOf t c + config.horizontalSpacing)
    (hcd : xOf t c < xOf t d) (more : Nat) (stats : Stats) :
    Clear config (resolveRounds config (levels t t.visiblePreOrder) more t stats).1 c d := by
  induction more generalizing t stats with
  | zero =>
    rw [resolveRounds_last]
    exact h.sweep_keeps hsiblings hcd
  | succ more ih =>
    have hlt := h.sweep_lt hsiblings hwide hcd
    have hsweep := sweep_agrees config (levels t t.visiblePreOrder) t
    have hrecenter := recenter_agrees (levels t t.visiblePreOrder) (sweep config (levels t t.visiblePreOrder) t).1
    have hnone : ∀ e, visibleChildren t e = [] → visibleChildren (sweep config (levels t t.visiblePreOrder) t).1 e = [] :=
      fun e he => (visibleChildren_congr (hsweep.view Node.bare (fun _ => rfl)) e).trans he
    rw [← xOf_recenter (hnone c hc) (levels t t.visiblePreOrder),
      ← xOf_recenter (hnone d hd) (levels t t.visiblePreOrder)] at hlt
    rw [resolveRounds]
    dsimp only
    split
    · exact h.sweep_keeps hsiblings hcd
    · -- after putting parents back the tree is one that can be swept again, with the same levels
      have hagrees := hsweep.trans hrecenter
      have hnext : Agrees Node.visibleChildren t _ := hagrees.view Node.visibleChildren (fun _ => rfl)
      generalize recenter (levels t t.visiblePreOrder) (sweep config (levels t t.visiblePreOrder) t).1 = u at hagrees hnext hlt
      have hbare := visibleChildren_congr (hagrees.view Node.bare (fun _ => rfl))
      have hlevels : levels t t.visiblePreOrder = levels u u.visiblePreOrder := by
        rw [visiblePreOrder_congr hnext, levels_eq_of_agrees hagrees]
      rw [hlevels]
      refine ih (h.of_agrees hagrees) (hsiblings.of_agrees hnext) ((hbare c).trans hc) ((hbare d).trans hd) ?_ hlt _
      rwa [widthOf_eq_of_agrees hagrees]

/-! ## What a layout reports -/

/-- A sweep over a level that makes no shift leaves the tree as it is. -/
theorem sweepLevel_shifts (config : LayoutConfig Rat) (ids : List NodeId) (t : Tree Rat) (shifts : Nat) :
    shifts ≤ (sweepLevel config ids (t, shifts)).2 ∧
      ((sweepLevel config ids (t, shifts)).2 = shifts → (sweepLevel config ids (t, shifts)).1 = t) := by
  induction ids generalizing t shifts with
  | nil => exact ⟨Nat.le_refl _, fun _ => rfl⟩
  | cons left ids ih =>
    cases ids with
    | nil => exact ⟨Nat.le_refl _, fun _ => rfl⟩
    | cons right rest =>
      simp only [sweepLevel]
      split
      · have hmore := (ih (shiftSubtree t right (deficit config t left right)) (shifts + 1)).1
        exact ⟨Nat.le_of_succ_le hmore, fun he => absurd (hmore.trans_eq he) (Nat.not_succ_le_self shifts)⟩
      · exact ih t shifts

theorem foldl_sweepNext_shifts (config : LayoutConfig Rat) (levels : List (List NodeId)) (t : Tree Rat) (shifts : Nat) :
    shifts ≤ (levels.foldl (sweepNext config) (t, shifts)).2 ∧
      ((levels.foldl (sweepNext config) (t, shifts)).2 = shifts → (levels.foldl (sweepNext config) (t, shifts)).1 = t) := by
  induction levels generalizing t shifts with
  | nil => exact ⟨Nat.le_refl _, fun _ => rfl⟩
  | cons ids levels ih =>
    obtain ⟨hle, hsame⟩ := sweepLevel_shifts config (fromLeft t ids) t shifts
    obtain ⟨hrest, hrestSame⟩ := ih (sweepNext config (t, shifts) ids).1 (sweepNext config (t, shifts) ids).2
    refine ⟨hle.trans hrest, fun he => ?_⟩
    have hnone : (sweepNext config (t, shifts) ids).2 = shifts := Nat.le_antisymm (hrest.trans_eq he) hle
    exact (hrestSame (he.trans hnone.symm)).trans (hsame hnone)

/-- A sweep that shifts nothing leaves the tree as it is. -/
theorem sweep_of_no_shift {levels : List (List NodeId)} (h : (sweep config levels t).2 = 0) : sweep config levels t = (t, 0) :=
  Prod.ext ((foldl_sweepNext_shifts config levels t 0).2 h) h

/-- Rounds count at least the first one and its shifts, and end with it unless they count more. -/
theorem resolveRounds_counts (config : LayoutConfig Rat) (levels : List (List NodeId)) (more : Nat) (t : Tree Rat)
    (stats : Stats) : stats.rounds + 1 ≤ (resolveRounds config levels more t stats).2.rounds ∧
      stats.shifts + (sweep config levels t).2 ≤ (resolveRounds config levels more t stats).2.shifts ∧
      ((resolveRounds config levels more t stats).1 = (sweep config levels t).1 ∨
        stats.rounds + 1 < (resolveRounds config levels more t stats).2.rounds ∧ 0 < (sweep config levels t).2) := by
  induction more generalizing t stats with
  | zero =>
    rw [resolveRounds]
    dsimp only
    split <;> exact ⟨Nat.le_refl _, Nat.le_refl _, Or.inl rfl⟩
  | succ more ih =>
    rw [resolveRounds]
    dsimp only
    split
    · exact ⟨Nat.le_refl _, Nat.le_refl _, Or.inl rfl⟩
    · rename_i hshifted
      obtain ⟨hrounds, hshifts, -⟩ := ih (recenter levels (sweep config levels t).1)
        { stats with rounds := stats.rounds + 1, shifts := stats.shifts + (sweep config levels t).2 }
      rw [beq_iff_eq] at hshifted
      exact ⟨Nat.le_of_succ_le hrounds, (Nat.le_add_right _ _).trans hshifts, Or.inr ⟨hrounds, Nat.pos_of_ne_zero hshifted⟩⟩

/-- One round is a sweep. -/
theorem resolveOverlaps_of_one_round {order : List NodeId} (hone : (resolveOverlaps config order t).2.rounds = 1) :
    (resolveOverlaps config order t).1 = (sweep config (levels t order) t).1 := by
  obtain ⟨-, -, hfirst⟩ := resolveRounds_counts config (levels t order) (max config.maxOverlapIterations 1 - 1) t
    { visibleNodes := order.length }
  exact hfirst.resolve_right (fun hmore => absurd hone (Nat.ne_of_gt hmore.1))

/-- Where nothing is shifted the tree stays as it is. -/
theorem resolveOverlaps_of_no_shift {order : List NodeId} (hnone : (resolveOverlaps config order t).2.shifts = 0) :
    sweep config (levels t order) t = (t, 0) ∧ (resolveOverlaps config order t).1 = t := by
  obtain ⟨-, hshifts, hfirst⟩ := resolveRounds_counts config (levels t order) (max config.maxOverlapIterations 1 - 1) t
    { visibleNodes := order.length }
  have hstill : (sweep config (levels t order) t).2 = 0 :=
    Nat.eq_zero_of_le_zero ((Nat.zero_add _).ge.trans (hshifts.trans_eq hnone))
  have hsame := hfirst.resolve_right (fun hmore => absurd hstill (Nat.ne_of_gt hmore.2))
  rw [sweep_of_no_shift hstill] at hsame ⊢
  exact ⟨rfl, hsame⟩

/-! ## The layout -/

/-- A tree in its first places, as it comes into the first sweep. -/
theorem sweepable_placed (h : t.Spanning) (hl : t.Leveled) (hgap : 0 ≤ config.horizontalSpacing)
    (htol : 0 ≤ config.overlapTolerance) (hw : ∀ i ∈ t.visiblePreOrder, 0 < widthOf t i) :
    Sweepable config (placed config t) := by
  refine ⟨spanning_placed h config, leveled_placed hl config, hgap, htol, fun i hi => ?_⟩
  rw [visiblePreOrder_placed] at hi
  rw [widthOf_placed]
  exact (hw i hi).le

section FirstPlaces

variable (h : t.Spanning) (hl : t.Leveled) (hgap : 0 ≤ config.horizontalSpacing) (htol : 0 ≤ config.overlapTolerance)
  (hw : ∀ i ∈ t.visiblePreOrder, 0 < widthOf t i) (hi : i ∈ t.visiblePreOrder) (hn : t.get? i = some n)
include h hl hgap htol hw hi hn

/-- In first places that the first sweep leaves as they are a child stands further right than an earlier one. -/
theorem children_in_order_of_still : n.visibleChildren.Pairwise (fun c d =>
    config.overlapTolerance < widthOf t c + config.horizontalSpacing →
      sweep config (levels (placed config t) (placed config t).visiblePreOrder) (placed config t) = (placed config t, 0) →
        xOf (placed config t) c < xOf (placed config t) d) := by
  have hsweep := sweepable_placed h hl hgap htol hw
  have horder := visiblePreOrder_placed config t
  have hdepths := depthOf_eq_of_agrees ((placed_agrees config t).view Node.depth (fun _ => rfl))
  refine (centers_in_order h hgap hw hi hn).imp_of_mem (fun {c d} hc hd hcenters hwide hstill => ?_)
  have hsiblings : Siblings t c d := ⟨i, hi, n, hn, hc, hd⟩
  obtain ⟨hcv, hdv, hdepth, -⟩ := hsiblings.alike h hl
  have hne : c ≠ d := fun he => by
    rw [he] at hcenters
    linarith
  have hapart : Apart config
      (sweep config (levels (placed config t) (placed config t).visiblePreOrder) (placed config t)).1 c d :=
    sweep_levels_apart hsweep.spanning hsweep.leveled hgap htol hsweep.widths (horder.symm ▸ hcv) (horder.symm ▸ hdv) hne
      (by rw [hdepths, hdepths, hdepth])
  rw [hstill] at hapart
  have hdpos := hw d hdv
  rw [centerOf, centerOf] at hcenters
  unfold Apart Clear reach at hapart
  rw [widthOf_placed, widthOf_placed] at hcenters hapart
  rcases hapart with hclear | hbehind
  · linarith
  · -- the later one is then the narrower one, so that its left edge is further right because its middle is
    linarith

/-- Once overlaps are resolved, a child stands further right than an earlier one in the cases told. -/
theorem resolved_in_order :
    let u := placed config t
    let out := resolveOverlaps config u.visiblePreOrder u
    n.visibleChildren.Pairwise (fun c d => config.overlapTolerance < widthOf t c + config.horizontalSpacing →
      (visibleChildren t c = [] ∧ visibleChildren t d = []) ∨
        (out.2.rounds = 1 ∧ (visibleChildren t d = [] ∨ widthOf t d ≤ widthOf t c + 2 * config.horizontalSpacing)) ∨
          out.2.shifts = 0 → xOf out.1 c < xOf out.1 d) := by
  intro u out
  have hsweepable := sweepable_placed h hl hgap htol hw
  have hagrees : Agrees Node.unplaced t u := placed_agrees config t
  have hwidths : ∀ v, Agrees Node.offX u v → ∀ c, widthOf v c = widthOf t c :=
    fun v hv c => (widthOf_eq_of_agrees hv c).trans (widthOf_placed config t c)
  have hbare := visibleChildren_congr (hagrees.view Node.unsized bare_unplaced)
  have hplaced := (children_in_order h hgap hw hi hn).and (children_in_order_of_still h hl hgap htol hw hi hn)
  refine hplaced.imp_of_mem (fun {c d} hc hd hcd hwide hcases => ?_)
  have hsiblings : Siblings u c d :=
    Siblings.of_agrees ⟨i, hi, n, hn, hc, hd⟩ (hagrees.view Node.visibleChildren (fun _ => rfl))
  rcases hcases with ⟨hcnone, hdnone⟩ | ⟨hone, hnarrow⟩ | hnone
  · have hclear : Clear config out.1 c d := hsweepable.rounds_keep hsiblings ((hbare c).trans hcnone) ((hbare d).trans hdnone)
      (by rwa [widthOf_placed]) (hcd.1 (Or.inl hdnone)) _ _
    exact hclear.lt (by rwa [hwidths out.1 (resolveOverlaps_agrees config _ u)])
  · rw [resolveOverlaps_of_one_round hone]
    exact hsweepable.sweep_lt hsiblings (by rwa [widthOf_placed]) (hcd.1 hnarrow)
  · obtain ⟨hstill, hsame⟩ := resolveOverlaps_of_no_shift hnone
    rw [hsame]
    exact hcd.2 hwide hstill

end FirstPlaces

/-- A layout moves nodes, and changes nothing else of the tree with sizes. -/
theorem sized_layout_agrees (e : Engine Rat) (p : Plan Rat) : Agrees Node.unplaced (sized e.config p.tree) (e.layout p).2.1.tree := by
  rw [show (e.layout p).2.1.tree = _ from tree_layout e p, arrange_eq]
  exact (placed_agrees e.config _).trans ((resolveOverlaps_agrees e.config _ _).view Node.unplaced (fun _ => rfl))

/-- After a layout a child stands further right than an earlier one, if the tolerance is less than the width of the earlier one
and the gap, and if neither shows children; or if there was one round, and the later one shows no children or is wider by no
more than twice the gap; or if nothing was shifted. -/
theorem layout_keeps_sibling_order (e : Engine Rat) (p : Plan Rat) (h : p.tree.Spanning) (hl : p.tree.Leveled)
    (hgap : 0 ≤ e.config.horizontalSpacing) (htol : 0 ≤ e.config.overlapTolerance)
    (hw : ∀ i ∈ p.tree.visiblePreOrder, ∀ n, p.tree.get? i = some n → 0 < (applyDefaultSize e.config n).width) :
    let gap := e.config.horizontalSpacing
    let stats := (e.layout p).1.stats
    let t := (e.layout p).2.1.tree
    ∀ n ∈ t.nodesAt t.visiblePreOrder, (t.nodesAt n.visibleChildren).Pairwise (fun c d =>
      e.config.overlapTolerance < c.width + gap →
        (c.visibleChildren = [] ∧ d.visibleChildren = []) ∨
          (stats.rounds = 1 ∧ (d.visibleChildren = [] ∨ d.width ≤ c.width + 2 * gap)) ∨ stats.shifts = 0 →
        c.x < d.x) := by
  intro gap stats t n hn
  have hs := spanning_sized h e.config
  have hls := leveled_sized hl e.config
  have hpos : ∀ i ∈ (sized e.config p.tree).visiblePreOrder, 0 < widthOf (sized e.config p.tree) i :=
    forall_widthOf_sized h hw
  have harrange := arrange_eq e.config p.tree
  have ht : t = (resolveOverlaps e.config (placed e.config (sized e.config p.tree)).visiblePreOrder
      (placed e.config (sized e.config p.tree))).1 := by
    rw [show t = _ from tree_layout e p, harrange]
  have hstats : stats = _ := congrArg Prod.snd harrange
  have hagrees : Agrees Node.unplaced (sized e.config p.tree) t := sized_layout_agrees e p
  obtain ⟨i, hi, hn⟩ := List.mem_filterMap.mp hn
  obtain ⟨m, hm, he⟩ := hagrees.symm.get? hn
  have hchildren : m.visibleChildren = n.visibleChildren := eq_of_unplaced_eq he Node.visibleChildren (fun _ => rfl)
  rw [visiblePreOrder_congr (hagrees.view Node.visibleChildren (fun _ => rfl))] at hi
  have hordered := resolved_in_order hs hls hgap htol hpos hi hm
  dsimp only at hordered
  rw [hchildren, ← ht, ← hstats] at hordered
  have hwidth := widthOf_congr (hagrees.view Node.width (fun _ => rfl))
  have hshown := visibleChildren_congr (hagrees.view Node.unsized bare_unplaced)
  rw [nodesAt, List.pairwise_filterMap]
  refine hordered.imp (fun {c d} hcd c' hc' d' hd' => ?_)
  rwa [← hwidth c, ← hwidth d, ← hshown c, ← hshown d, widthOf_eq hc', widthOf_eq hd', visibleChildren_eq hc',
    visibleChildren_eq hd', xOf_eq hc', xOf_eq hd'] at hcd

/-- The two children of a root, laid out with the standard sizes. -/
theorem layout_keeps_sibling_order_standard :
    let row (level : Nat) : Row := ⟨1, level, "", "", .unknown, none, none⟩
    let p : Plan Rat := Plan.parsed .physical "" (Tree.ofRows [row 0, row 1, row 1])
    let t := ((Engine.new LayoutConfig.standard).layout p).2.1.tree
    ∃ a b, t.get? 1 = some a ∧ t.get? 2 = some b ∧ a.x < b.x := by
  intro row p t
  have hp : p.tree = Tree.ofRows [row 0, row 1, row 1] := Plan.tree_parsed _ _ _
  have h : p.tree.WellFormed := by
    rw [hp]
    exact Outline.ofRows_wellFormed _
  have htol : (0 : Rat) ≤ (LayoutConfig.standard : LayoutConfig Rat).overlapTolerance := by
    change (0 : Rat) ≤ 1 / 2
    norm_num
  have hw : ∀ i ∈ p.tree.visiblePreOrder, ∀ n ∈ p.tree.get? i,
      0 < (applyDefaultSize (LayoutConfig.standard : LayoutConfig Rat) n).width := by
    rw [hp]
    decide
  have hagrees : Agrees (fun n => (n.visibleChildren, n.width)) (sized LayoutConfig.standard p.tree) t :=
    (sized_layout_agrees (Engine.new LayoutConfig.standard) p).view (fun n => (n.visibleChildren, n.width)) (fun _ => rfl)
  have hsized : ∀ i ∈ [0, 1, 2], ((sized LayoutConfig.standard p.tree).get? i).map (fun n => (n.visibleChildren, n.width)) =
      some (if i = 0 then [1, 2] else [], 180) := by
    rw [hp]
    decide
  have hnode : ∀ i ∈ [0, 1, 2], ∃ n, t.get? i = some n ∧ (n.visibleChildren, n.width) = (if i = 0 then [1, 2] else [], 180) :=
    fun i hi => Option.map_eq_some_iff.mp ((hagrees.2 i).trans (hsized i hi))
  have hroot : 0 ∈ t.visiblePreOrder := by
    rw [visiblePreOrder_congr (hagrees.view Prod.fst (fun _ => rfl)), visiblePreOrder_sized, hp]
    decide
  obtain ⟨n, hn, hshown⟩ := hnode 0 (by decide)
  obtain ⟨a, ha, hleaf⟩ := hnode 1 (by decide)
  obtain ⟨b, hb, hleaf'⟩ := hnode 2 (by decide)
  simp only [Prod.mk.injEq, if_pos, OfNat.ofNat_ne_zero, if_false] at hshown hleaf hleaf'
  have hordered := layout_keeps_sibling_order (Engine.new LayoutConfig.standard) p h.toSpanning h.leveled (by decide) htol hw
    n (List.mem_filterMap.mpr ⟨0, hroot, hn⟩)
  rw [hshown.1, nodesAt, List.filterMap_cons_some ha, List.filterMap_cons_some hb, List.filterMap_nil,
    List.pairwise_pair] at hordered
  refine ⟨a, b, ha, hb, hordered ?_ (Or.inl ⟨hleaf.1, hleaf'.1⟩)⟩
  rw [hleaf.2]
  change (1 / 2 : Rat) < 180 + 24
  norm_num

/-- With a single round siblings end up in the order of their first places, be it that of the children or not. -/
theorem layout_once_lt (e : Engine Rat) (p : Plan Rat) (h : p.tree.Spanning) (hl : p.tree.Leveled)
    (hgap : 0 ≤ e.config.horizontalSpacing) (htol : 0 ≤ e.config.overlapTolerance)
    (hw : ∀ i ∈ p.tree.visiblePreOrder, ∀ n, p.tree.get? i = some n → 0 < (applyDefaultSize e.config n).width)
    (hone : e.config.maxOverlapIterations ≤ 1) (hsiblings : Siblings p.tree c d)
    (hwide : e.config.overlapTolerance < widthOf (sized e.config p.tree) c + e.config.horizontalSpacing)
    (hcd : xOf (placed e.config (sized e.config p.tree)) c < xOf (placed e.config (sized e.config p.tree)) d) :
    xOf (e.layout p).2.1.tree c < xOf (e.layout p).2.1.tree d := by
  have hsweepable := sweepable_placed (spanning_sized h e.config) (leveled_sized hl e.config) hgap htol
    (forall_widthOf_sized h hw)
  have hplaced : Siblings (placed e.config (sized e.config p.tree)) c d :=
    (hsiblings.of_agrees ((sized_agrees e.config p.tree).view Node.visibleChildren (fun _ => rfl))).of_agrees
      ((placed_agrees e.config (sized e.config p.tree)).view Node.visibleChildren (fun _ => rfl))
  rw [show (e.layout p).2.1.tree = _ from tree_layout e p, arrange_eq, resolveOverlaps, Nat.max_eq_right hone, Nat.sub_self,
    resolveRounds_last]
  exact hsweepable.sweep_lt hplaced (by rwa [widthOf_placed]) hcd

/-- A root shows a leaf of width 20, and a node of width 900 over a leaf of width 500 and a node of width 100 with a child of
width 400. The slots of the two children begin at 0 and 44, but the middle of the second one's own children is at 431, so that
it begins at -19. The sweep shifts the first child to its right. -/
theorem layout_swaps_siblings :
    let row (level : Nat) : Row := ⟨1, level, "", "", .unknown, none, none⟩
    let width (id : NodeId) : Rat := [180, 20, 900, 500, 100, 400].getD id 0
    let p : Plan Rat := Plan.parsed .physical ""
      ((Tree.ofRows ([0, 1, 1, 2, 2, 3].map row)).map (fun n => { n with width := width n.id }))
    let config : LayoutConfig Rat := LayoutConfig.standard.withMaxOverlapIterations 1
    let t := ((Engine.new config).layout p).2.1.tree
    p.tree.WellFormed ∧ (∀ i ∈ p.tree.visiblePreOrder, 0 < widthOf p.tree i) ∧
      (p.tree.get? 0).map Node.visibleChildren = some [1, 2] ∧ xOf t 2 < xOf t 1 := by
  intro row width p config t
  have hp : p.tree = (Tree.ofRows ([0, 1, 1, 2, 2, 3].map row)).map (fun n => { n with width := width n.id }) :=
    Plan.tree_parsed _ _ _
  have h : p.tree.WellFormed := by
    rw [hp]
    exact (Outline.ofRows_wellFormed _).of_agrees (Agrees.map _ _ (fun _ => rfl))
  have hwidths : (∀ i ∈ p.tree.visiblePreOrder, 0 < widthOf p.tree i) ∧
      ∀ i ∈ p.tree.visiblePreOrder, ∀ n ∈ p.tree.get? i, 0 < (applyDefaultSize config n).width := by
    rw [hp]
    decide +kernel
  have hshows : 0 ∈ p.tree.visiblePreOrder ∧ (p.tree.get? 0).map Node.visibleChildren = some [1, 2] := by
    rw [hp]
    decide +kernel
  have hsiblings : Siblings p.tree 2 1 := by
    obtain ⟨n, hn, hchildren⟩ := Option.map_eq_some_iff.mp hshows.2
    exact ⟨0, hshows.1, n, hn, by rw [hchildren]; decide, by rw [hchildren]; decide⟩
  have hplaced : config.overlapTolerance < widthOf (sized config p.tree) 2 + config.horizontalSpacing ∧
      xOf (placed config (sized config p.tree)) 2 < xOf (placed config (sized config p.tree)) 1 := by
    rw [hp]
    decide +kernel
  have hswapped := layout_once_lt (Engine.new config) p h.toSpanning h.leveled (by decide) (by decide +kernel) hwidths.2
    Nat.le.refl hsiblings hplaced.1 hplaced.2
  exact ⟨h, hwidths.1, hshows.2, hswapped⟩

end DaxPlan.Layout
