import DaxPlan.Proofs.Layout.Bounds
import DaxPlan.Proofs.Layout.Centres

/-!
# Nodes of one width

Where all visible nodes are equally wide, none is wider than the children it shows, and every node lies within its slot
(`within_slot`), not only its middle. Slots of one level do not overlap, so the first sweep finds nothing to shift and the first
round is the last (`uniform_still`). The slot of a node is as wide as its leaves side by side (`slotWidth_uniform`) and has a
leaf at either end (`slot_ends`); for the root that is the width of the plan, told by the footprint (`layout_uniform`).
-/

namespace DaxPlan.Layout

open DaxPlan.Tree

/-! ## Bounds -/

namespace Bounds

variable {all : List (Bounds Rat)} {low high : Rat}

/-- Rectangles that lie between two edges, and reach both, are together as wide as these are apart. -/
theorem unionAll_eq (hlow : ∀ b ∈ all, low ≤ b.x) (hat : ∃ b ∈ all, b.x = low) (hhigh : ∀ b ∈ all, b.x + b.width ≤ high)
    (hat' : ∃ b ∈ all, b.x + b.width = high) : ∃ b, unionAll all = some b ∧ b.x = low ∧ b.width = high - low := by
  obtain ⟨l, hl, rfl⟩ := hat
  obtain ⟨r, hr, rfl⟩ := hat'
  obtain ⟨b, hb⟩ := Option.ne_none_iff_exists'.mp (mt unionAll_eq_none_iff.mp (List.ne_nil_of_mem hl))
  have haround := (isLUB_of_unionAll hb).1
  obtain ⟨⟨first, hfirst, hx⟩, ⟨last, hlast, hright⟩, -⟩ := unionAll_touched hb
  have hbegin : b.x = l.x := le_antisymm (haround hl).1 (hx ▸ hlow first hfirst)
  have hend : b.x + b.width = r.x + r.width := le_antisymm (hright.symm.trans_le (hhigh last hlast)) (haround hr).2.1
  refine ⟨b, hb, hbegin, ?_⟩
  linarith

/-- The rectangles of nodes that lie between two edges, and reach both. -/
theorem unionAll_nodes {t : Tree Rat} {ids : List NodeId} (hget : ∀ i ∈ ids, ∃ n, t.get? i = some n)
    (hlow : ∀ i ∈ ids, low ≤ xOf t i) (hat : ∃ i ∈ ids, xOf t i = low)
    (hhigh : ∀ i ∈ ids, xOf t i + widthOf t i ≤ high) (hat' : ∃ i ∈ ids, xOf t i + widthOf t i = high) :
    ∃ b, unionAll ((t.nodesAt ids).map ofNode) = some b ∧ b.x = low ∧ b.width = high - low := by
  have hnode : ∀ n ∈ t.nodesAt ids, ∃ i ∈ ids, xOf t i = n.x ∧ widthOf t i = n.width := by
    intro n hn
    obtain ⟨i, hi, hn⟩ := List.mem_filterMap.mp hn
    exact ⟨i, hi, xOf_eq hn, widthOf_eq hn⟩
  have hreached : ∀ i ∈ ids, ∃ b ∈ (t.nodesAt ids).map ofNode, b.x = xOf t i ∧ b.width = widthOf t i := by
    intro i hi
    obtain ⟨n, hn⟩ := hget i hi
    exact ⟨ofNode n, List.mem_map_of_mem (List.mem_filterMap.mpr ⟨i, hi, hn⟩), (xOf_eq hn).symm, (widthOf_eq hn).symm⟩
  refine unionAll_eq (List.forall_mem_map.mpr (fun n hn => ?_)) ?_ (List.forall_mem_map.mpr (fun n hn => ?_)) ?_
  · obtain ⟨i, hi, hx, -⟩ := hnode n hn
    exact (hlow i hi).trans_eq hx
  · obtain ⟨i, hi, hx⟩ := hat
    obtain ⟨b, hb, hbx, -⟩ := hreached i hi
    exact ⟨b, hb, hbx.trans hx⟩
  · obtain ⟨i, hi, hx, hwidth⟩ := hnode n hn
    have hend := hhigh i hi
    rwa [hx, hwidth] at hend
  · obtain ⟨i, hi, hx⟩ := hat'
    obtain ⟨b, hb, hbx, hwidth⟩ := hreached i hi
    exact ⟨b, hb, by rw [hbx, hwidth, hx]⟩

end Bounds

/-! ## Nothing to shift -/

section Clear

variable {config : LayoutConfig Rat} {t : Tree Rat} {ids : List NodeId} {levels : List (List NodeId)}

/-- A sweep over a level leaves nodes alone that are clear of each other. -/
theorem sweepLevel_of_clear (h : ids.Pairwise (Clear config t)) (shifts : Nat) :
    sweepLevel config ids (t, shifts) = (t, shifts) := by
  induction ids with
  | nil => rfl
  | cons left ids ih =>
    cases ids with
    | nil => rfl
    | cons right rest =>
      obtain ⟨hleft, hrest⟩ := List.pairwise_cons.mp h
      have hclear := hleft right List.mem_cons_self
      have hclose : ¬Quantity.lt config.overlapTolerance (deficit config t left right) = true := by
        rw [Quantity.lt_rat_iff, deficit_eq, not_lt]
        unfold Clear at hclear
        linarith
      simp only [sweepLevel, if_neg hclose]
      exact ih hrest

/-- A sweep over a level leaves the nodes alone if, of any two of them, one begins where the other one has ended. -/
theorem sweepNext_of_apart (hnodup : ids.Nodup) (hgap : 0 ≤ config.horizontalSpacing) (htol : 0 ≤ config.overlapTolerance)
    (hw : ∀ a ∈ ids, 0 < widthOf t a)
    (hapart : ∀ a ∈ ids, ∀ b ∈ ids, a ≠ b → reach config t a ≤ xOf t b ∨ reach config t b ≤ xOf t a)
    (shifts : Nat) : sweepNext config (t, shifts) ids = (t, shifts) := by
  have hperm := fromLeft_perm t ids
  have hdistinct : (fromLeft t ids).Pairwise (fun a b => a ≠ b) := hperm.nodup_iff.mpr hnodup
  refine sweepLevel_of_clear (((fromLeft_sorted t ids).and hdistinct).imp_of_mem (fun {a b} ha hb hab => ?_)) shifts
  obtain ⟨hle, hne⟩ := hab
  have ha := hperm.mem_iff.mp ha
  have hb := hperm.mem_iff.mp hb
  have hpos := hw b hb
  unfold Clear
  rcases hapart a ha b hb hne with hclear | hbehind
  · linarith
  · unfold reach at hbehind
    linarith

theorem foldl_sweepNext_of_still (h : ∀ ids ∈ levels, sweepNext config (t, 0) ids = (t, 0)) :
    levels.foldl (sweepNext config) (t, 0) = (t, 0) := by
  induction levels with
  | nil => rfl
  | cons ids levels ih =>
    obtain ⟨hids, hlevels⟩ := List.forall_mem_cons.mp h
    rw [List.foldl_cons, hids, ih hlevels]

end Clear

/-! ## Slots of uniform nodes -/

section Uniform

variable {config : LayoutConfig Rat} {t : Tree Rat} {w gap : Rat} {i first last : NodeId} {n : Node Rat}

/-- Slots that are as wide as their leaves side by side span what all their leaves side by side do. -/
theorem childrenSpan_leaves {widths : Table Rat} {leaves : NodeId → Nat} {ids : List NodeId} (hne : ids ≠ [])
    (hids : ∀ c ∈ ids, widths.get c = leaves c * w + (leaves c - 1) * gap) :
    childrenSpan ids widths gap = Number.total (ids.map leaves) * w + (Number.total (ids.map leaves) - 1) * gap := by
  induction ids with
  | nil => exact absurd rfl hne
  | cons c ids ih =>
    obtain ⟨hc, hids⟩ := List.forall_mem_cons.mp hids
    cases ids with
    | nil =>
      rw [childrenSpan_singleton, hc, List.map_singleton, Number.total_cons, Number.total_nil, Nat.add_zero]
    | cons d ids =>
      have htotal : Number.total ((c :: d :: ids).map leaves) = leaves c + Number.total ((d :: ids).map leaves) :=
        Number.total_cons _ _
      rw [childrenSpan_cons_cons, hc, ih (List.cons_ne_nil d ids) hids, htotal, Nat.cast_add]
      ring

theorem width_uniform (hw : ∀ i ∈ t.visiblePreOrder, widthOf t i = w) (hi : i ∈ t.visiblePreOrder) (hn : t.get? i = some n) :
    n.width = w :=
  (widthOf_eq hn).symm.trans (hw i hi)

theorem uniform_nonneg (hpos : 0 < w) (hw : ∀ i ∈ t.visiblePreOrder, widthOf t i = w) :
    ∀ i ∈ t.visiblePreOrder, 0 ≤ widthOf t i :=
  fun i hi => (hw i hi).ge.trans' hpos.le

variable (h : t.Spanning) (hgap : 0 ≤ gap) (hpos : 0 < w) (hw : ∀ i ∈ t.visiblePreOrder, widthOf t i = w)
include h hgap hpos hw

/-- No node is wider than the children it shows. -/
theorem uniform_fits (hi : i ∈ t.visiblePreOrder) (hn : t.get? i = some n) (hshows : n.visibleChildren ≠ []) :
    n.width ≤ childrenSpan n.visibleChildren (slotWidths t gap) gap := by
  have hnonneg := uniform_nonneg hpos hw
  obtain ⟨c, hc⟩ := List.exists_mem_of_ne_nil n.visibleChildren hshows
  have hvisible := h.visible_child hi hn hc
  obtain ⟨m, hm, -⟩ := h.visible_node hvisible
  calc
    n.width = widthOf t i := (widthOf_eq hn).symm
    _ = widthOf t c := (hw i hi).trans (hw c hvisible).symm
    _ ≤ (slotWidths t gap).get c := widthOf_eq hm ▸ width_le_slotWidth h gap hvisible hm
    _ ≤ childrenSpan n.visibleChildren (slotWidths t gap) gap :=
      (slots_sideBySide h gap hi hn).width_le hgap (slotWidth_children_nonneg h hnonneg hi hn) c hc

/-- The slot of a node is as wide as its leaves side by side. -/
theorem slotWidth_uniform (hi : i ∈ t.visiblePreOrder) :
    (slotWidths t gap).get i = t.footprint i * w + (t.footprint i - 1) * gap := by
  refine h.upward (P := fun i => i ∈ t.visiblePreOrder →
    (slotWidths t gap).get i = t.footprint i * w + (t.footprint i - 1) * gap) (fun i n hn hchildren hi => ?_)
    (h.lt_size_of_visible hi) hi
  rw [h.footprint_eq hn]
  by_cases hshows : n.visibleChildren = []
  · rw [slotWidth_leaf h hi hn hshows, ← widthOf_eq hn, hw i hi, hshows, List.isEmpty_nil, if_pos rfl]
    ring
  · rw [slotWidth_parent h hi hn hshows, max_eq_right (uniform_fits h hgap hpos hw hi hn hshows),
      childrenSpan_leaves hshows (fun c hc => hchildren c hc (h.visible_child hi hn hc)),
      if_neg (by rwa [List.isEmpty_iff])]

end Uniform

section Placed

variable {config : LayoutConfig Rat} {t : Tree Rat} {w : Rat} {i first last : NodeId} {n : Node Rat}

theorem widthOf_placed_uniform (config : LayoutConfig Rat) (hw : ∀ i ∈ t.visiblePreOrder, widthOf t i = w)
    (hi : i ∈ t.visiblePreOrder) : widthOf (placed config t) i = w :=
  (widthOf_placed config t i).trans (hw i hi)

variable (h : t.Spanning) (hgap : 0 ≤ config.horizontalSpacing) (hpos : 0 < w) (hw : ∀ i ∈ t.visiblePreOrder, widthOf t i = w)
include h hgap hpos hw

/-- Every node that shows children has its middle in the middle between those of the first and the last of them. -/
theorem center_uniform (hi : i ∈ t.visiblePreOrder) (hn : t.get? i = some n) (hfirst : n.visibleChildren.head? = some first)
    (hlast : n.visibleChildren.getLast? = some last) :
    centerOf (placed config t) i = (centerOf (placed config t) first + centerOf (placed config t) last) / 2 := by
  have hf : first ∈ n.visibleChildren := List.mem_of_mem_head? hfirst
  have hl : last ∈ n.visibleChildren := List.mem_of_getLast? hlast
  have hfits := uniform_fits h hgap hpos hw hi hn (List.ne_nil_of_mem hf)
  rw [centerOf_placed h config hi hn hfits hfirst hlast, centerOf, centerOf,
    widthOf_placed_uniform config hw (h.visible_child hi hn hf),
    widthOf_placed_uniform config hw (h.visible_child hi hn hl)]
  ring

/-- After the first placement every node is within its slot. -/
theorem within_slot (hi : i ∈ t.visiblePreOrder) :
    slotLeft t config.horizontalSpacing i ≤ xOf (placed config t) i ∧
      xOf (placed config t) i + w ≤ slotRight t config.horizontalSpacing i := by
  have hnonneg := uniform_nonneg hpos hw
  refine h.upward (P := fun i => i ∈ t.visiblePreOrder →
    slotLeft t config.horizontalSpacing i ≤ xOf (placed config t) i ∧
      xOf (placed config t) i + w ≤ slotRight t config.horizontalSpacing i) (fun i n hn hchildren hi => ?_)
    (h.lt_size_of_visible hi) hi
  by_cases hshows : n.visibleChildren = []
  · rw [xOf_placed_leaf h config hi hn hshows, slotRight, slotWidth_leaf h hi hn hshows, width_uniform hw hi hn]
    exact ⟨le_rfl, le_rfl⟩
  · obtain ⟨first, last, hfirst, hlast⟩ := exists_head_last hshows
    have hf : first ∈ n.visibleChildren := List.mem_of_mem_head? hfirst
    have hl : last ∈ n.visibleChildren := List.mem_of_getLast? hlast
    have hcenter := center_uniform h hgap hpos hw hi hn hfirst hlast
    rw [centerOf, centerOf, centerOf, widthOf_placed_uniform config hw hi,
      widthOf_placed_uniform config hw (h.visible_child hi hn hf),
      widthOf_placed_uniform config hw (h.visible_child hi hn hl)] at hcenter
    obtain ⟨hfl, hfr⟩ := hchildren first hf (h.visible_child hi hn hf)
    obtain ⟨hll, hlr⟩ := hchildren last hl (h.visible_child hi hn hl)
    obtain ⟨hfl', hfr'⟩ := slot_child h hgap hnonneg hi hn hf
    obtain ⟨hll', hlr'⟩ := slot_child h hgap hnonneg hi hn hl
    constructor <;> linarith

/-- The slot of every node begins where a leaf below it begins, and ends where one ends. -/
theorem slot_ends (hi : i ∈ t.visiblePreOrder) :
    (∃ j ∈ t.visibleSubtree i, xOf (placed config t) j = slotLeft t config.horizontalSpacing i) ∧
      ∃ j ∈ t.visibleSubtree i, xOf (placed config t) j + w = slotRight t config.horizontalSpacing i := by
  have hnonneg := uniform_nonneg hpos hw
  refine h.upward (P := fun i => i ∈ t.visiblePreOrder →
    (∃ j ∈ t.visibleSubtree i, xOf (placed config t) j = slotLeft t config.horizontalSpacing i) ∧
      ∃ j ∈ t.visibleSubtree i, xOf (placed config t) j + w = slotRight t config.horizontalSpacing i)
    (fun i n hn hchildren hi => ?_) (h.lt_size_of_visible hi) hi
  by_cases hshows : n.visibleChildren = []
  · have hself := h.mem_visibleSubtree_self hn
    have hx := xOf_placed_leaf h config hi hn hshows
    refine ⟨⟨i, hself, hx⟩, i, hself, ?_⟩
    rw [hx, slotRight, slotWidth_leaf h hi hn hshows, width_uniform hw hi hn]
  · obtain ⟨first, last, hfirst, hlast⟩ := exists_head_last hshows
    have hf : first ∈ n.visibleChildren := List.mem_of_mem_head? hfirst
    have hl : last ∈ n.visibleChildren := List.mem_of_getLast? hlast
    have hfits := uniform_fits h hgap hpos hw hi hn hshows
    have hside := slots_sideBySide h config.horizontalSpacing hi hn
    have hbelow : ∀ c ∈ n.visibleChildren, ∀ j ∈ t.visibleSubtree c, j ∈ t.visibleSubtree i := by
      intro c hc j hj
      rw [h.visibleSubtree_eq hn]
      exact List.mem_cons_of_mem i (List.mem_flatMap.mpr ⟨c, hc, hj⟩)
    rw [childrenEdge_of_le hfits] at hside
    obtain ⟨⟨j, hj, hleft⟩, -⟩ := hchildren first hf (h.visible_child hi hn hf)
    obtain ⟨-, ⟨k, hk, hright⟩⟩ := hchildren last hl (h.visible_child hi hn hl)
    refine ⟨⟨j, hbelow first hf j hj, hleft.trans (hside.first_begin hfirst)⟩, k, hbelow last hl k hk, ?_⟩
    rw [hright, slotRight, slotRight, hside.last_end hlast, slotWidth_parent h hi hn hshows, max_eq_right hfits]

/-- After the first placement a node begins where the earlier ones of its level and the gap have ended. -/
theorem uniform_in_order (hl : t.Leveled) : t.visiblePreOrder.Pairwise (fun a b => depthOf t a = depthOf t b →
    reach config (placed config t) a ≤ xOf (placed config t) b) := by
  have hslots := slots_in_order h hgap (uniform_nonneg hpos hw)
  refine (pairwise_of_depth h hl hslots).imp_of_mem (fun {a b} ha hb hab hd => ?_)
  have hright := hab hd
  have hend := (within_slot h hgap hpos hw ha).2
  have hbegin := (within_slot h hgap hpos hw hb).1
  rw [reach, widthOf_placed_uniform config hw ha]
  linarith

/-- So the first sweep shifts nothing. -/
theorem uniform_still (hl : t.Leveled) (htol : 0 ≤ config.overlapTolerance) :
    sweep config (levels (placed config t) (placed config t).visiblePreOrder) (placed config t) = (placed config t, 0) := by
  have horder := visiblePreOrder_placed config t
  have hdepth := depthOf_eq_of_agrees ((placed_agrees config t).view Node.depth (fun _ => rfl))
  have hspan := spanning_placed h config
  have hright : t.visiblePreOrder.Pairwise (fun a b => depthOf t a = depthOf t b →
      reach config (placed config t) a ≤ xOf (placed config t) b ∨
        reach config (placed config t) b ≤ xOf (placed config t) a) :=
    (uniform_in_order h hgap hpos hw hl).imp (fun hab hd => Or.inl (hab hd))
  have hsymm : Std.Symm (fun a b => depthOf t a = depthOf t b → reach config (placed config t) a ≤ xOf (placed config t) b ∨
      reach config (placed config t) b ≤ xOf (placed config t) a) := ⟨fun _ _ hab hd => (hab hd.symm).symm⟩
  refine foldl_sweepNext_of_still (fun ids hids => ?_)
  have hmem : ∀ a ∈ ids, a ∈ t.visiblePreOrder := fun a ha => horder ▸ visible_of_mem_level hspan hids ha
  have hlevel : ∀ a ∈ ids, ∀ b ∈ ids, depthOf t a = depthOf t b := by
    obtain ⟨j, -, rfl⟩ := (mem_levels_iff hspan).mp hids
    intro a ha b hb
    rw [← hdepth, ← hdepth]
    exact (beq_iff_eq.mp (List.mem_filter.mp ha).2).trans (beq_iff_eq.mp (List.mem_filter.mp hb).2).symm
  refine sweepNext_of_apart (peers_levels hspan (leveled_placed hl config) ids hids).nodup hgap htol (fun a ha => ?_)
    (fun a ha b hb hne => hright.forall (hmem a ha) (hmem b hb) hne (hlevel a ha b hb)) 0
  rw [widthOf_placed_uniform config hw (hmem a ha)]
  exact hpos

/-- A node that shows children is over the middle between the first and the last of them. -/
theorem uniform_centered (hi : i ∈ t.visiblePreOrder) (hn : (placed config t).get? i = some n)
    (hshows : n.visibleChildren ≠ []) :
    ∃ first last, n.visibleChildren.head?.bind (placed config t).get? = some first ∧
      n.visibleChildren.getLast?.bind (placed config t).get? = some last ∧
      n.centerX = (first.centerX + last.centerX) / 2 := by
  have hnode : ∀ c ∈ n.visibleChildren, ∃ m, (placed config t).get? c = some m :=
    fun c hc => lt_size_iff.mp ((spanning_placed h config).visibleChild_lt_size hn hc)
  obtain ⟨m, hm, he⟩ := (placed_agrees config t).symm.get? hn
  have hchildren : m.visibleChildren = n.visibleChildren := eq_of_unplaced_eq he Node.visibleChildren (fun _ => rfl)
  obtain ⟨first, last, hfirst, hlast⟩ := exists_head_last hshows
  obtain ⟨f, hf⟩ := hnode first (List.mem_of_mem_head? hfirst)
  obtain ⟨l, hl⟩ := hnode last (List.mem_of_getLast? hlast)
  have hcenter := center_uniform h hgap hpos hw hi hm (hchildren ▸ hfirst) (hchildren ▸ hlast)
  rw [centerOf_eq hn, centerOf_eq hf, centerOf_eq hl] at hcenter
  exact ⟨f, l, by rw [hfirst, Option.bind_some, hf], by rw [hlast, Option.bind_some, hl], hcenter⟩

/-- The visible nodes begin at zero, and end where the leaves of the root do side by side. -/
theorem uniform_bounds {r : NodeId} (hr : t.root = some r) :
    ∃ b, Bounds.unionAll (((placed config t).nodesAt t.visiblePreOrder).map Bounds.ofNode) = some b ∧ b.x = 0 ∧
      b.width = t.footprint r * w + (t.footprint r - 1) * config.horizontalSpacing := by
  have hvisible := h.root_visible hr
  have hwalk := visiblePreOrder_root hr
  have horder := visiblePreOrder_placed config t
  have hleft := slotLeft_root h config.horizontalSpacing hr
  have hright : slotRight t config.horizontalSpacing r =
      t.footprint r * w + (t.footprint r - 1) * config.horizontalSpacing := by
    rw [slotRight, hleft, slotWidth_uniform h hgap hpos hw hvisible, zero_add]
  have hwithin : ∀ i ∈ t.visiblePreOrder, 0 ≤ xOf (placed config t) i ∧
      xOf (placed config t) i + widthOf (placed config t) i ≤ slotRight t config.horizontalSpacing r := by
    intro i hi
    obtain ⟨hbegin, hend⟩ := within_slot h hgap hpos hw hi
    obtain ⟨hroot, hroot'⟩ := slot_below h hgap (uniform_nonneg hpos hw) hvisible i (hwalk ▸ hi)
    rw [← hleft, widthOf_placed_uniform config hw hi]
    exact ⟨hroot.trans hbegin, hend.trans hroot'⟩
  obtain ⟨⟨j, hj, hjx⟩, k, hk, hkx⟩ := slot_ends h hgap hpos hw hvisible
  rw [← hwalk] at hj hk
  rw [← widthOf_placed_uniform config hw hk] at hkx
  have hget : ∀ i ∈ t.visiblePreOrder, ∃ n, (placed config t).get? i = some n :=
    fun i hi => lt_size_iff.mp ((spanning_placed h config).lt_size_of_visible (horder.symm ▸ hi))
  obtain ⟨b, hb, hbx, hwidth⟩ := Bounds.unionAll_nodes hget (fun i hi => (hwithin i hi).1) ⟨j, hj, hjx.trans hleft⟩
    (fun i hi => (hwithin i hi).2) ⟨k, hk, hkx⟩
  exact ⟨b, hb, hbx, by rw [hwidth, hright, sub_zero]⟩

end Placed

/-! ## The layout -/

/-- Where all visible nodes have one width the first places are the last ones: nothing overlaps, and the first sweep shifts
nothing. On every level the nodes stand in the order of the walk, with the gap between them; every node is over the middle
between the first and the last child that it shows; and the plan begins at zero and is as wide as the leaves it shows, side by
side. -/
theorem layout_uniform (e : Engine Rat) (p : Plan Rat) {r : NodeId} {w : Rat} (h : p.tree.Spanning) (hl : p.tree.Leveled)
    (hr : p.tree.root = some r) (hgap : 0 ≤ e.config.horizontalSpacing) (htol : 0 ≤ e.config.overlapTolerance) (hpos : 0 < w)
    (hw : ∀ i ∈ p.tree.visiblePreOrder, ∀ n, p.tree.get? i = some n → (applyDefaultSize e.config n).width = w) :
    let gap := e.config.horizontalSpacing
    let stats := (e.layout p).1.stats
    let q := (e.layout p).2.1
    (stats.converged = true ∧ stats.rounds = 1 ∧ stats.shifts = 0) ∧
      q.tree.visiblePreOrder = p.tree.visiblePreOrder ∧
      (q.tree.nodesAt q.tree.visiblePreOrder).Pairwise (fun a b => a.depth = b.depth → a.x + a.width + gap ≤ b.x) ∧
      (∀ n ∈ q.tree.nodesAt q.tree.visiblePreOrder, n.width = w ∧ (n.visibleChildren ≠ [] →
        ∃ first last, n.visibleChildren.head?.bind q.tree.get? = some first ∧
          n.visibleChildren.getLast?.bind q.tree.get? = some last ∧ n.centerX = (first.centerX + last.centerX) / 2)) ∧
      ∃ b, q.bounds = some b ∧ b.x = 0 ∧ b.width = p.tree.footprint r * w + (p.tree.footprint r - 1) * gap := by
  intro gap stats q
  have hs := spanning_sized h e.config
  have hls := leveled_sized hl e.config
  have horder := visiblePreOrder_sized e.config p.tree
  have hplaced := visiblePreOrder_placed e.config (sized e.config p.tree)
  have hwidth : ∀ i ∈ (sized e.config p.tree).visiblePreOrder, widthOf (sized e.config p.tree) i = w :=
    forall_widthOf_sized (P := fun width => width = w) h hw
  have hroot : (sized e.config p.tree).root = some r := (sized_agrees e.config p.tree).1.trans hr
  have hfootprint : (sized e.config p.tree).footprint r = p.tree.footprint r :=
    footprint_congr ((sized_agrees e.config p.tree).view Node.visibleChildren (fun _ => rfl)) r
  have hdepth := depthOf_eq_of_agrees ((placed_agrees e.config (sized e.config p.tree)).view Node.depth (fun _ => rfl))
  have harrange : Engine.arrange e.config p.tree = (placed e.config (sized e.config p.tree),
      { visibleNodes := p.tree.visiblePreOrder.length, rounds := 1, shifts := 0, converged := true }) := by
    rw [arrange_eq, resolveOverlaps, resolveRounds_of_still (uniform_still hs hgap hpos hwidth hls htol), hplaced, horder]
  have htree : q.tree = placed e.config (sized e.config p.tree) := by
    rw [show q.tree = _ from tree_layout e p, harrange]
  have hstats : stats = _ := congrArg Prod.snd harrange
  have hbounds : q.bounds = Bounds.unionAll ((q.tree.nodesAt q.tree.visiblePreOrder).map Bounds.ofNode) := rfl
  rw [hbounds, htree, hplaced, hstats]
  refine ⟨⟨rfl, rfl, rfl⟩, horder, ?_, fun n hn => ?_, ?_⟩
  · rw [nodesAt, List.pairwise_filterMap]
    refine (uniform_in_order hs hgap hpos hwidth hls).imp (fun {i j} hij a ha b hb hd => ?_)
    rw [← hdepth, ← hdepth, depthOf_eq ha, depthOf_eq hb] at hij
    have hclear := hij hd
    rwa [reach, xOf_eq ha, widthOf_eq ha, xOf_eq hb] at hclear
  · obtain ⟨i, hi, hn⟩ := List.mem_filterMap.mp hn
    exact ⟨(widthOf_eq hn).symm.trans (widthOf_placed_uniform e.config hwidth hi),
      uniform_centered hs hgap hpos hwidth hi hn⟩
  · rw [← hfootprint]
    exact uniform_bounds hs hgap hpos hwidth hroot

/-- Three leaves on two levels, with the standard sizes. -/
theorem layout_uniform_standard :
    let row (level : Nat) : Row := ⟨1, level, "", "", .unknown, none, none⟩
    let p : Plan Rat := Plan.parsed .physical "" (Tree.ofRows ([0, 1, 2, 2, 1].map row))
    let out := (Engine.new LayoutConfig.standard).layout p
    out.1.stats.rounds = 1 ∧ out.1.stats.shifts = 0 ∧ ∃ b, out.2.1.bounds = some b ∧ b.x = 0 ∧ b.width = 588 := by
  intro row p out
  have hp : p.tree = Tree.ofRows ([0, 1, 2, 2, 1].map row) := Plan.tree_parsed _ _ _
  have h : p.tree.WellFormed := by
    rw [hp]
    exact Outline.ofRows_wellFormed _
  have hr : p.tree.root = some 0 := by
    rw [hp]
    decide
  have hfootprint : p.tree.footprint 0 = 3 := by
    rw [hp]
    decide
  have htol : (0 : Rat) ≤ (LayoutConfig.standard : LayoutConfig Rat).overlapTolerance := by
    change (0 : Rat) ≤ 1 / 2
    norm_num
  have hw : ∀ i ∈ p.tree.visiblePreOrder, ∀ n, p.tree.get? i = some n →
      (applyDefaultSize (LayoutConfig.standard : LayoutConfig Rat) n).width = 180 := by
    have hsizes : ∀ i ∈ p.tree.visiblePreOrder,
        ((p.tree.get? i).map (applyDefaultSize LayoutConfig.standard)).map Node.width = some 180 := by
      rw [hp]
      decide
    intro i hi n hn
    have hi := hsizes i hi
    rw [hn] at hi
    exact Option.some.inj hi
  obtain ⟨⟨-, hrounds, hshifts⟩, -, -, -, b, hb, hx, hwidth⟩ := layout_uniform (Engine.new LayoutConfig.standard) p
    h.toSpanning h.leveled hr (by decide) htol (by decide) hw
  refine ⟨hrounds, hshifts, b, hb, hx, ?_⟩
  rw [hwidth, hfootprint]
  change (3 : Rat) * 180 + (3 - 1) * 24 = 588
  norm_num

end DaxPlan.Layout
