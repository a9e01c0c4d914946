import DaxPlan.Proofs.Layout.Slots

/-!
# Where the first placement puts the nodes

A leaf, and a node that is wider than its children side by side, stands at the left of its slot; any other node stands over the
middle of its children (`xOf_placed_leaf`, `xOf_placed_wide`, `centerOf_placed`). As nodes are placed from the leaves up, the
children are where they stay when their node is placed, so these rules hold of the tree that comes out (`get?_placed`).

A node need not lie within its slot: over a single child that is narrower than itself and stands left in its slot it sticks out.
But its middle is always strictly within the slot (`center_within`), so the middles of siblings stand in order, more than the gap
apart (`centers_in_order`), and their left edges do unless the later one is much wider (`children_in_order`).
-/

namespace DaxPlan.Layout

open DaxPlan.Tree

/-! ## Places told by places -/

section Placing

variable {α : Type} [Quantity α] {config : LayoutConfig α} {widths places : Table α} {t : Tree α} {ids : List NodeId}
  {i j : NodeId} {n : Node α}

/-- Putting a node at its place changes no other. -/
theorem get?_placeNode (hn : t.get? i = some n) (j : NodeId) :
    (placeNode config widths places i t).get? j = if i = j then some { n with
      x := leftEdge t widths places config.horizontalSpacing n, y := Quantity.ofNat n.depth * config.levelHeight }
      else t.get? j := by
  unfold placeNode
  rw [hn]
  dsimp only
  rw [get?_modify]
  split
  · rename_i hij
    rw [← hij, hn, Option.map_some]
  · rfl

/-- Placing some nodes moves no other. -/
theorem get?_foldr_placeNode_other (hj : j ∉ ids) (t : Tree α) :
    (ids.foldr (placeNode config widths places) t).get? j = t.get? j := by
  induction ids with
  | nil => rfl
  | cons i ids ih =>
    rw [List.mem_cons, not_or] at hj
    rw [List.foldr_cons]
    cases hn : (ids.foldr (placeNode config widths places) t).get? i with
    | none =>
      rw [placeNode, hn]
      exact ih hj.2
    | some n => rw [get?_placeNode hn, if_neg (Ne.symm hj.1), ih hj.2]

/-- The tree with its visible nodes in their first places. -/
def placed (config : LayoutConfig α) (t : Tree α) : Tree α := place config t.visiblePreOrder t

/-- A tree that is placed differs in places only. -/
theorem placed_agrees (config : LayoutConfig α) (t : Tree α) : Agrees Node.unplaced t (placed config t) :=
  place_agrees config t.visiblePreOrder t

/-- The same is visible when nodes are placed. -/
theorem visiblePreOrder_placed (config : LayoutConfig α) (t : Tree α) :
    (placed config t).visiblePreOrder = t.visiblePreOrder :=
  visiblePreOrder_congr ((placed_agrees config t).view Node.visibleChildren (fun _ => rfl))

/-- A node stands where the rule puts it over its children, wherever these stand in the end. -/
theorem get?_placed (h : t.Spanning) (config : LayoutConfig α) (hi : i ∈ t.visiblePreOrder) (hn : t.get? i = some n) :
    (placed config t).get? i = some { n with
      x := leftEdge (placed config t) (slotWidths t config.horizontalSpacing)
        (slotEdges t config.horizontalSpacing) config.horizontalSpacing n
      y := Quantity.ofNat n.depth * config.levelHeight } := by
  have hfollow := childrenFollow_visiblePreOrder h
  have hnodup := h.nodup_visiblePreOrder
  have hplace : placed config t = t.visiblePreOrder.foldr
    (placeNode config (slotWidths t config.horizontalSpacing) (slotEdges t config.horizontalSpacing)) t := rfl
  rw [hplace]
  generalize slotWidths t config.horizontalSpacing = widths
  generalize slotEdges t config.horizontalSpacing = places
  generalize t.visiblePreOrder = order at hi hfollow hnodup
  obtain ⟨a, b, rfl⟩ := List.append_of_mem hi
  obtain ⟨-, hib, hab⟩ := List.nodup_append.mp hnodup
  have hia : i ∉ a := fun hm => hab i hm i List.mem_cons_self rfl
  generalize hu : b.foldr (placeNode config widths places) t = u
  have hun : u.get? i = some n := by rw [← hu, get?_foldr_placeNode_other (List.nodup_cons.mp hib).1, hn]
  -- what comes earlier in the walk is placed later, and leaves the children alone
  have hplaced : Agrees Node.unplaced u (a.foldr (placeNode config widths places) (placeNode config widths places i u)) :=
    (placeNode_agrees config widths places i u).trans
      (Agrees.foldr _ (fun t id => placeNode_agrees config widths places id t) a _)
  have hchildren : ∀ c ∈ b, (a.foldr (placeNode config widths places) (placeNode config widths places i u)).get? c =
      u.get? c := by
    intro c hc
    have hca : c ∉ a := fun hm => hab c hm c (List.mem_cons_of_mem i hc) rfl
    have hci : i ≠ c := fun he => (List.nodup_cons.mp hib).1 (he ▸ hc)
    rw [get?_foldr_placeNode_other hca, get?_placeNode hun, if_neg hci]
  have halike : Alike (a ++ i :: b) b u (a.foldr (placeNode config widths places) (placeNode config widths places i u)) :=
    ⟨hplaced.view Node.unsized bare_unplaced, fun j _ => hplaced.2 j, hchildren⟩
  have hshown : ∀ c ∈ n.visibleChildren, c ∈ b := by
    intro c hc
    refine hfollow a i b rfl c ?_
    rwa [visibleChildren_eq hn]
  rw [List.foldr_append, List.foldr_cons, hu, halike.leftEdge rfl hshown, get?_foldr_placeNode_other hia, get?_placeNode hun,
    if_pos rfl]

end Placing

/-! ## From sizes to the first sweep -/

section Sizes

variable {α : Type} [Quantity α] {config : LayoutConfig α} {t : Tree α} {i : NodeId} {n : Node α}

/-- The tree with sizes for its visible nodes. -/
def sized (config : LayoutConfig α) (t : Tree α) : Tree α := applyDefaultSizes config t.visiblePreOrder t

/-- A tree whose nodes got sizes differs in sizes only. -/
theorem sized_agrees (config : LayoutConfig α) (t : Tree α) : Agrees Node.unsized t (sized config t) :=
  applyDefaultSizes_agrees config t.visiblePreOrder t

/-- The same is visible when nodes got sizes. -/
theorem visiblePreOrder_sized (config : LayoutConfig α) (t : Tree α) : (sized config t).visiblePreOrder = t.visiblePreOrder :=
  visiblePreOrder_congr ((sized_agrees config t).view Node.visibleChildren (fun _ => rfl))

/-- A tree whose nodes got sizes is spanned by its walk. -/
theorem spanning_sized (h : t.Spanning) (config : LayoutConfig α) : (sized config t).Spanning :=
  h.of_agrees ((sized_agrees config t).view Node.links (fun _ => rfl))

/-- A tree whose nodes got sizes is leveled. -/
theorem leveled_sized (h : t.Leveled) (config : LayoutConfig α) : (sized config t).Leveled :=
  h.of_agrees ((sized_agrees config t).view (fun n => (n.children, n.depth)) (fun _ => rfl))

/-- A tree that is placed is spanned by its walk. -/
theorem spanning_placed (h : t.Spanning) (config : LayoutConfig α) : (placed config t).Spanning :=
  h.of_agrees ((placed_agrees config t).view Node.links (fun _ => rfl))

/-- A tree that is placed is leveled. -/
theorem leveled_placed (h : t.Leveled) (config : LayoutConfig α) : (placed config t).Leveled :=
  h.of_agrees ((placed_agrees config t).view (fun n => (n.children, n.depth)) (fun _ => rfl))

/-- The geometry of a tree is that of its first places, with overlaps resolved. -/
theorem arrange_eq (config : LayoutConfig α) (t : Tree α) :
    Engine.arrange config t = resolveOverlaps config (placed config (sized config t)).visiblePreOrder
      (placed config (sized config t)) := by
  rw [visiblePreOrder_placed, placed, visiblePreOrder_sized]
  rfl

end Sizes

/-! ## Where the nodes stand -/

section Standing

variable {config : LayoutConfig Rat} {t : Tree Rat} {i c first last : NodeId} {n m : Node Rat}

/-- The middle of a node. -/
def centerOf (t : Tree Rat) (id : NodeId) : Rat := xOf t id + widthOf t id / 2

/-- The left edge of a node that is there. -/
theorem xOf_eq (hn : t.get? i = some n) : xOf t i = n.x := by
  rw [xOf, hn]
  rfl

/-- The middle of a node that is there. -/
theorem centerOf_eq (hn : t.get? i = some n) : centerOf t i = n.centerX := by
  rw [centerOf, xOf_eq hn, widthOf_eq hn]
  rfl

/-- A visible node has its own width or the default one. -/
theorem widthOf_sized (h : t.Spanning) (config : LayoutConfig Rat) (hi : i ∈ t.visiblePreOrder) (hn : t.get? i = some n) :
    widthOf (sized config t) i = (applyDefaultSize config n).width := by
  have hget : (sized config t).get? i = some (applyDefaultSize config n) := by
    rw [sized, get?_applyDefaultSizes h.nodup_visiblePreOrder, if_pos hi, hn, Option.map_some]
  exact widthOf_eq hget

/-- What is true of the widths of the visible nodes with standard sizes is true of the tree with sizes. -/
theorem forall_widthOf_sized {P : Rat → Prop} (h : t.Spanning)
    (hw : ∀ i ∈ t.visiblePreOrder, ∀ n, t.get? i = some n → P (applyDefaultSize config n).width) :
    ∀ i ∈ (sized config t).visiblePreOrder, P (widthOf (sized config t) i) := by
  intro i hi
  rw [visiblePreOrder_sized] at hi
  obtain ⟨n, hn, -⟩ := h.visible_node hi
  rw [widthOf_sized h config hi hn]
  exact hw i hi n hn

/-- Placing changes no width. -/
theorem widthOf_placed (config : LayoutConfig Rat) (t : Tree Rat) (i : NodeId) :
    widthOf (placed config t) i = widthOf t i :=
  widthOf_congr ((placed_agrees config t).view Node.width (fun _ => rfl)) i

/-- A node that shows no children stands at the left of its slot. -/
theorem xOf_placed_leaf (h : t.Spanning) (config : LayoutConfig Rat) (hi : i ∈ t.visiblePreOrder) (hn : t.get? i = some n)
    (hnone : n.visibleChildren = []) :
    xOf (placed config t) i = slotLeft t config.horizontalSpacing i := by
  rw [xOf_eq (get?_placed h config hi hn)]
  dsimp only
  rw [leftEdge, hnone, slotLeft, h.ids i n hn]
  rfl

/-- A node that is wider than the span of the children it shows stands at the left of its slot. -/
theorem xOf_placed_wide (h : t.Spanning) (config : LayoutConfig Rat) (hi : i ∈ t.visiblePreOrder) (hn : t.get? i = some n)
    (hwide : childrenSpan n.visibleChildren (slotWidths t config.horizontalSpacing) config.horizontalSpacing < n.width) :
    xOf (placed config t) i = slotLeft t config.horizontalSpacing i := by
  have hle : ¬Quantity.le n.width
      (childrenSpan n.visibleChildren (slotWidths t config.horizontalSpacing) config.horizontalSpacing) = true := by
    rw [Quantity.le_rat_iff]
    exact not_le.mpr hwide
  rw [xOf_eq (get?_placed h config hi hn)]
  dsimp only
  rw [leftEdge, slotLeft, h.ids i n hn]
  split
  · rw [if_neg hle]
  · rfl

/-- Any other node stands over the middle of the children it shows, from the left edge of the first to the right edge of the
last. -/
theorem centerOf_placed (h : t.Spanning) (config : LayoutConfig Rat) (hi : i ∈ t.visiblePreOrder) (hn : t.get? i = some n)
    (hfits : n.width ≤ childrenSpan n.visibleChildren (slotWidths t config.horizontalSpacing) config.horizontalSpacing)
    (hfirst : n.visibleChildren.head? = some first) (hlast : n.visibleChildren.getLast? = some last) :
    centerOf (placed config t) i = (xOf (placed config t) first +
      (xOf (placed config t) last + widthOf (placed config t) last)) / 2 := by
  have hnode : ∀ c ∈ n.visibleChildren, ∃ m, (placed config t).get? c = some m := by
    intro c hc
    obtain ⟨m, hm⟩ := lt_size_iff.mp (h.visibleChild_lt_size hn hc)
    obtain ⟨m', hm', -⟩ := (placed_agrees config t).get? hm
    exact ⟨m', hm'⟩
  obtain ⟨f, hf⟩ := hnode first (List.mem_of_mem_head? hfirst)
  obtain ⟨l, hl⟩ := hnode last (List.mem_of_getLast? hlast)
  have hplaced := get?_placed h config hi hn
  have hle := Quantity.le_rat_iff.mpr hfits
  rw [centerOf_eq hplaced, xOf_eq hf, xOf_eq hl, widthOf_eq hl, Node.centerX]
  dsimp only
  rw [leftEdge, hfirst, hlast, Option.bind_some, Option.bind_some, hf, hl]
  dsimp only
  rw [if_pos hle, Quantity.half_rat, Quantity.half_rat, sub_add_cancel]

/-- Of several nodes the first is the last, or stands to the last as any node does to a later one. -/
theorem head_last_of_pairwise {R : NodeId → NodeId → Prop} {ids : List NodeId} (h : ids.Pairwise R)
    (hfirst : ids.head? = some first) (hlast : ids.getLast? = some last) : first = last ∨ R first last := by
  cases h with
  | nil => cases hfirst
  | @cons c rest hc _ =>
    obtain rfl : c = first := Option.some.inj hfirst
    cases rest with
    | nil => exact Or.inl (Option.some.inj hlast)
    | cons d rest =>
      rw [List.getLast?_cons_cons] at hlast
      exact Or.inr (hc last (List.mem_of_getLast? hlast))

/-- Where there are nodes there is a first one and a last one. -/
theorem exists_head_last {ids : List NodeId} (h : ids ≠ []) : ∃ first last, ids.head? = some first ∧ ids.getLast? = some last :=
  ⟨ids.head h, ids.getLast h, List.head?_eq_some_head h, List.getLast?_eq_some_getLast h⟩

/-- The middle of a node is strictly within its slot. -/
def CenterWithin (config : LayoutConfig Rat) (t : Tree Rat) (id : NodeId) : Prop :=
  slotLeft t config.horizontalSpacing id < centerOf (placed config t) id ∧
    centerOf (placed config t) id < slotRight t config.horizontalSpacing id

variable (h : t.Spanning) (hgap : 0 ≤ config.horizontalSpacing) (hw : ∀ i ∈ t.visiblePreOrder, 0 < widthOf t i)
include h hw

/-- A node at the left edge of its slot has its middle within the slot. -/
theorem centerWithin_of_left (hi : i ∈ t.visiblePreOrder) (hn : t.get? i = some n)
    (hx : xOf (placed config t) i = slotLeft t config.horizontalSpacing i) : CenterWithin config t i := by
  have hpos := hw i hi
  have hwidth := width_le_slotWidth h config.horizontalSpacing hi hn
  rw [widthOf_eq hn] at hpos
  rw [CenterWithin, centerOf, hx, widthOf_placed, widthOf_eq hn, slotRight]
  constructor <;> linarith

include hgap

/-- A node over the middle of its children has its middle within its slot, if the first and the last child have theirs within
their slots. The first may stick out of its slot to the left, but the last one is then to the right by more than that. -/
theorem centerWithin_of_children (hi : i ∈ t.visiblePreOrder) (hn : t.get? i = some n) (hshows : n.visibleChildren ≠ [])
    (hfits : n.width ≤ childrenSpan n.visibleChildren (slotWidths t config.horizontalSpacing) config.horizontalSpacing)
    (hchildren : ∀ c ∈ n.visibleChildren, CenterWithin config t c) : CenterWithin config t i := by
  have hnonneg : ∀ i ∈ t.visiblePreOrder, 0 ≤ widthOf t i := fun i hi => (hw i hi).le
  obtain ⟨first, last, hfirst, hlast⟩ := exists_head_last hshows
  have hf : first ∈ n.visibleChildren := List.mem_of_mem_head? hfirst
  have hl : last ∈ n.visibleChildren := List.mem_of_getLast? hlast
  have hwide : ∀ c ∈ n.visibleChildren,
      0 < widthOf t c ∧ widthOf t c ≤ (slotWidths t config.horizontalSpacing).get c := by
    intro c hc
    have hvisible := h.visible_child hi hn hc
    obtain ⟨m, hm, -⟩ := h.visible_node hvisible
    refine ⟨hw c hvisible, ?_⟩
    rw [widthOf_eq hm]
    exact width_le_slotWidth h config.horizontalSpacing hvisible hm
  have hcenter := centerOf_placed h config hi hn hfits hfirst hlast
  have hbegin := (slot_child h hgap hnonneg hi hn hf).1
  have hend := (slot_child h hgap hnonneg hi hn hl).2
  have hsiblings := (slots_sideBySide h config.horizontalSpacing hi hn).pairwise hgap (slotWidth_children_nonneg h hnonneg hi hn)
  obtain ⟨hfl, hfr⟩ := hchildren first hf
  obtain ⟨hll, hlr⟩ := hchildren last hl
  obtain ⟨hfpos, hfwidth⟩ := hwide first hf
  obtain ⟨hlpos, hlwidth⟩ := hwide last hl
  rw [CenterWithin, hcenter]
  rw [centerOf, widthOf_placed] at hfl hfr hll hlr
  rw [widthOf_placed]
  rcases head_last_of_pairwise hsiblings hfirst hlast with rfl | hapart
  · constructor <;> linarith
  · rw [slotRight] at hfr hlr hend
    constructor <;> linarith

/-- After the first placement the middle of every visible node is within its slot. -/
theorem center_within (hi : i ∈ t.visiblePreOrder) : CenterWithin config t i := by
  refine h.upward (P := fun i => i ∈ t.visiblePreOrder → CenterWithin config t i) (fun i n hn hchildren hi => ?_)
    (h.lt_size_of_visible hi) hi
  by_cases hshows : n.visibleChildren = []
  · exact centerWithin_of_left h hw hi hn (xOf_placed_leaf h config hi hn hshows)
  · by_cases hfits : n.width ≤ childrenSpan n.visibleChildren (slotWidths t config.horizontalSpacing) config.horizontalSpacing
    · exact centerWithin_of_children h hgap hw hi hn hshows hfits
        (fun c hc => hchildren c hc (h.visible_child hi hn hc))
    · exact centerWithin_of_left h hw hi hn (xOf_placed_wide h config hi hn (not_le.mp hfits))

/-- After the first placement the middles of the children of a node stand in the order of the children, each further right by
more than the gap. -/
theorem centers_in_order (hi : i ∈ t.visiblePreOrder) (hn : t.get? i = some n) : n.visibleChildren.Pairwise (fun c d =>
    centerOf (placed config t) c + config.horizontalSpacing < centerOf (placed config t) d) := by
  have hnonneg : ∀ i ∈ t.visiblePreOrder, 0 ≤ widthOf t i := fun i hi => (hw i hi).le
  have hslots := (slots_sideBySide h config.horizontalSpacing hi hn).pairwise hgap (slotWidth_children_nonneg h hnonneg hi hn)
  refine hslots.imp_of_mem (fun {c d} hc hd hcd => ?_)
  have hleft := (center_within h hgap hw (h.visible_child hi hn hc)).2
  have hright := (center_within h hgap hw (h.visible_child hi hn hd)).1
  rw [slotRight] at hleft
  linarith

/-- After the first placement a child stands further right than an earlier one, unless it shows children and is wider by more
than twice the gap. -/
theorem children_in_order (hi : i ∈ t.visiblePreOrder) (hn : t.get? i = some n) : n.visibleChildren.Pairwise (fun c d =>
    visibleChildren t d = [] ∨ widthOf t d ≤ widthOf t c + 2 * config.horizontalSpacing →
      xOf (placed config t) c < xOf (placed config t) d) := by
  have hnonneg : ∀ i ∈ t.visiblePreOrder, 0 ≤ widthOf t i := fun i hi => (hw i hi).le
  have hslots := (slots_sideBySide h config.horizontalSpacing hi hn).pairwise hgap (slotWidth_children_nonneg h hnonneg hi hn)
  refine (hslots.and (centers_in_order h hgap hw hi hn)).imp_of_mem (fun {c d} hc hd hcd hcase => ?_)
  obtain ⟨hslots, hcenters⟩ := hcd
  have hcvisible := h.visible_child hi hn hc
  have hdvisible := h.visible_child hi hn hd
  have hpos := hw c hcvisible
  rw [centerOf, centerOf, widthOf_placed, widthOf_placed] at hcenters
  rcases hcase with hnone | hnarrow
  · obtain ⟨m, hm, -⟩ := h.visible_node hdvisible
    have hx := xOf_placed_leaf h config hdvisible hm ((visibleChildren_eq hm).symm.trans hnone)
    have hwithin := (center_within h hgap hw hcvisible).2
    rw [centerOf, widthOf_placed, slotRight] at hwithin
    linarith
  · linarith

end Standing

end DaxPlan.Layout
