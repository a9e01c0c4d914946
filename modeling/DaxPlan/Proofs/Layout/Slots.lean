import DaxPlan.Proofs.Layout.Separation
import DaxPlan.Proofs.Layout.Tables
import DaxPlan.Proofs.Number.Exact
import Mathlib.Algebra.Order.BigOperators.Group.List
import Mathlib.Tactic.Ring

/-!
# Slots of the first placement

The first placement hands out slots: each node that shows children cuts its own slot up for them, side by side with the gap
between them (`places_sideBySide`). A slot is as wide as the visible subtree needs, so the slots of the children lie within that
of their node (`slot_child`), and so do those of all that is visible below it (`slot_below`). Of two nodes neither of which is
below the other the one that comes later in the walk has its slot to the right of the other, cousins included
(`slots_in_order`).

A slot is handed out once and is not touched before its node hands out slots in turn, since no node is shown by itself or by one
that comes later in the walk (`ChildrenFollow.not_shown_after`). That is why the slots can be told from the table in the end.
-/

namespace DaxPlan.Layout

open DaxPlan.Tree

/-- In a walk no node is shown by itself or by one that comes later. -/
theorem ChildrenFollow.not_shown_after {α : Type} {t : Tree α} {a b : List NodeId} {i : NodeId}
    (hfollow : ChildrenFollow t (a ++ i :: b)) (hnodup : (a ++ i :: b).Nodup) :
    i ∉ (i :: b).flatMap (visibleChildren t) := by
  intro hmem
  obtain ⟨j, hj, hij⟩ := List.mem_flatMap.mp hmem
  obtain ⟨pre, post, hsplit⟩ := List.append_of_mem hj
  have hpost : i ∈ post := hfollow (a ++ pre) j post (by rw [hsplit, List.append_assoc]) i hij
  have hb : i ∉ b := (List.nodup_cons.mp (List.nodup_append.mp hnodup).2.1).1
  cases pre with
  | nil =>
    obtain ⟨-, rfl⟩ := List.cons.inj hsplit
    exact hb hpost
  | cons k pre =>
    obtain ⟨-, rfl⟩ := List.cons.inj hsplit
    exact hb (List.mem_append_right pre (List.mem_cons_of_mem j hpost))

/-- What stands between two nodes of a walk unless the later one is below the earlier one stands between two nodes of a level. -/
theorem pairwise_of_depth {α : Type} {t : Tree α} {R : NodeId → NodeId → Prop} (h : t.Spanning) (hl : t.Leveled)
    (hp : t.visiblePreOrder.Pairwise (fun a b => b ∈ t.visibleSubtree a ∨ R a b)) :
    t.visiblePreOrder.Pairwise (fun a b => depthOf t a = depthOf t b → R a b) := by
  have hdistinct : t.visiblePreOrder.Pairwise (fun a b => a ≠ b) := h.nodup_visiblePreOrder
  refine (hp.and hdistinct).imp_of_mem (fun {a b} ha _ hab hd => ?_)
  obtain ⟨hbelow | hab, hne⟩ := hab
  · rcases eq_or_depthOf_lt h hl (h.lt_size_of_visible ha) hbelow with he | hlt
    · exact absurd he.symm hne
    · exact absurd hd (Nat.ne_of_lt hlt)
  · exact hab

/-! ## The tables of a tree -/

/-- The widths of the slots: those of the visible subtrees. -/
def slotWidths {α : Type} [Quantity α] (t : Tree α) (gap : α) : Table α := subtreeWidths t t.visiblePreOrder gap

/-- The left edges of the slots. -/
def slotEdges {α : Type} [Quantity α] (t : Tree α) (gap : α) : Table α := places t t.visiblePreOrder (slotWidths t gap) gap

/-! ## Handing out -/

section HandingOut

variable {α : Type} [Quantity α] {t : Tree α} {widths table : Table α} {spacing edge : α} {a b order ids : List NodeId}
  {i j r : NodeId} {n : Node α}

/-- Slots one after the other from an edge on, each of the width told, with a gap behind each. -/
inductive SideBySide (left width : NodeId → α) (gap : α) : α → List NodeId → Prop where
  | nil {edge : α} : SideBySide left width gap edge []
  | cons {edge : α} {c : NodeId} {rest : List NodeId} :
      left c = edge → SideBySide left width gap (edge + (width c + gap)) rest → SideBySide left width gap edge (c :: rest)

theorem SideBySide.congr {left left' width : NodeId → α} {gap : α} (h : SideBySide left width gap edge ids)
    (heq : ∀ c ∈ ids, left' c = left c) : SideBySide left' width gap edge ids := by
  induction h with
  | nil => exact nil
  | cons hc _ ih =>
    obtain ⟨hfirst, hrest⟩ := List.forall_mem_cons.mp heq
    exact cons (hfirst.trans hc) (ih hrest)

@[simp] theorem size_handOut (widths : Table α) (spacing : α) (ids : List NodeId) (edge : α) (table : Table α) :
    (handOut widths spacing ids edge table).size = table.size := by
  induction ids generalizing edge table with
  | nil => rfl
  | cons c rest ih => rw [handOut, ih, Array.size_setIfInBounds]

theorem handOut_other (hj : j ∉ ids) (edge : α) (table : Table α) :
    (handOut widths spacing ids edge table)[j]? = table[j]? := by
  induction ids generalizing edge table with
  | nil => rfl
  | cons c rest ih =>
    rw [List.mem_cons, not_or] at hj
    rw [handOut, ih hj.2, Array.getElem?_setIfInBounds_ne (Ne.symm hj.1)]

theorem handOut_sideBySide (hnodup : ids.Nodup) (hsize : ∀ c ∈ ids, c < table.size) (edge : α) :
    SideBySide (handOut widths spacing ids edge table).get widths.get spacing edge ids := by
  induction ids generalizing edge table with
  | nil => exact SideBySide.nil
  | cons c rest ih =>
    obtain ⟨hc, hrest⟩ := List.nodup_cons.mp hnodup
    obtain ⟨hcsize, hsize⟩ := List.forall_mem_cons.mp hsize
    rw [handOut]
    refine SideBySide.cons ?_ (ih hrest (fun d hd => ?_) _)
    · rw [Table.get, handOut_other hc, Array.getElem?_setIfInBounds_self_of_lt hcsize, Option.getD_some]
    · rw [Array.size_setIfInBounds]
      exact hsize d hd

/-- Where the slots of the children begin that a node shows: one that is wider than they are has room on both sides. -/
def childrenEdge (widths : Table α) (spacing : α) (n : Node α) (left : α) : α :=
  if Quantity.lt (childrenSpan n.visibleChildren widths spacing) n.width then
    left + Quantity.half (n.width - childrenSpan n.visibleChildren widths spacing)
  else left

theorem handOutBelow_eq (hn : t.get? i = some n) (table : Table α) :
    handOutBelow t widths spacing table i =
      handOut widths spacing n.visibleChildren (childrenEdge widths spacing n (table.get i)) table := by
  rw [handOutBelow, hn]
  dsimp only
  cases hc : n.visibleChildren with
  | nil => rfl
  | cons c rest =>
    rw [childrenEdge, hc]
    rfl

@[simp] theorem size_handOutBelow (t : Tree α) (widths : Table α) (spacing : α) (table : Table α) (i : NodeId) :
    (handOutBelow t widths spacing table i).size = table.size := by
  cases hn : t.get? i with
  | none => rw [handOutBelow, hn]
  | some n => rw [handOutBelow_eq hn, size_handOut]

theorem size_foldl_handOutBelow (order : List NodeId) (table : Table α) :
    (order.foldl (handOutBelow t widths spacing) table).size = table.size := by
  induction order generalizing table with
  | nil => rfl
  | cons i order ih => rw [List.foldl_cons, ih, size_handOutBelow]

/-- Nodes hand out slots to the children they show and to no other node. -/
theorem foldl_handOutBelow_other (hj : j ∉ order.flatMap (visibleChildren t)) (table : Table α) :
    (order.foldl (handOutBelow t widths spacing) table)[j]? = table[j]? := by
  induction order generalizing table with
  | nil => rfl
  | cons i order ih =>
    rw [List.flatMap_cons, List.mem_append, not_or] at hj
    rw [List.foldl_cons, ih hj.2]
    cases hn : t.get? i with
    | none => rw [handOutBelow, hn]
    | some n =>
      rw [visibleChildren_eq hn] at hj
      rw [handOutBelow_eq hn, handOut_other hj.1]

/-- The slots of the children that a node shows stand side by side, from where the node has room for them. -/
theorem places_sideBySide (h : t.Spanning) (widths : Table α) (spacing : α) (hi : i ∈ t.visiblePreOrder)
    (hn : t.get? i = some n) :
    SideBySide (places t t.visiblePreOrder widths spacing).get widths.get spacing
      (childrenEdge widths spacing n ((places t t.visiblePreOrder widths spacing).get i)) n.visibleChildren := by
  have hfollow := childrenFollow_visiblePreOrder h
  have hnodup := h.nodup_visiblePreOrder
  have honce := h.shown_once
  have hsize : ∀ c ∈ n.visibleChildren, c < t.size := fun c hc => h.visibleChild_lt_size hn hc
  unfold places
  generalize t.visiblePreOrder = order at hi hfollow hnodup honce
  obtain ⟨a, b, rfl⟩ := List.append_of_mem hi
  rw [List.flatMap_append, List.flatMap_cons, nextAt_eq hn] at honce
  obtain ⟨hchildren, -, hother⟩ := List.nodup_append.mp (List.nodup_append.mp honce).2.1
  generalize hbefore : a.foldl (handOutBelow t widths spacing) (Array.replicate t.size Quantity.zero) = before
  have hbeforeSize : before.size = t.size := by rw [← hbefore, size_foldl_handOutBelow, Array.size_replicate]
  rw [List.foldl_append, hbefore, Table.get, foldl_handOutBelow_other (hfollow.not_shown_after hnodup), List.foldl_cons,
    handOutBelow_eq hn]
  refine (handOut_sideBySide hchildren (fun c hc => hbeforeSize ▸ hsize c hc) _).congr (fun c hc => ?_)
  have hlater : c ∉ b.flatMap (visibleChildren t) := fun hm => hother c hc c hm rfl
  rw [Table.get, foldl_handOutBelow_other hlater, Table.get]
  rfl

/-- The slot of the root begins at zero. -/
theorem places_root (h : t.Spanning) (widths : Table α) (spacing : α) (hr : t.root = some r) :
    (places t t.visiblePreOrder widths spacing).get r = Quantity.zero := by
  have hperm := h.visiblePreOrder_spec.1.perm
  rw [hr] at hperm
  have hroot : r ∉ t.visiblePreOrder.flatMap (visibleChildren t) :=
    (List.nodup_cons.mp (hperm.nodup_iff.mp h.nodup_visiblePreOrder)).1
  have hlt := h.lt_size_of_visible (h.root_visible hr)
  rw [Table.get, places, foldl_handOutBelow_other hroot, Array.getElem?_replicate, if_pos hlt, Option.getD_some]

end HandingOut

/-! ## Spans -/

section Spans

variable {left : NodeId → Rat} {widths : Table Rat} {gap edge : Rat} {ids : List NodeId} {c d : NodeId} {n : Node Rat}

theorem childrenSpan_rat (ids : List NodeId) (widths : Table Rat) (gap : Rat) :
    childrenSpan ids widths gap = (ids.map widths.get).sum + (ids.length - 1 : Nat) * gap := by
  rw [childrenSpan, Quantity.sum_rat, Quantity.ofNat_rat]

theorem childrenSpan_singleton (c : NodeId) (widths : Table Rat) (gap : Rat) : childrenSpan [c] widths gap = widths.get c := by
  rw [childrenSpan_rat]
  simp

theorem childrenSpan_cons_cons (c d : NodeId) (ids : List NodeId) (widths : Table Rat) (gap : Rat) :
    childrenSpan (c :: d :: ids) widths gap = widths.get c + gap + childrenSpan (d :: ids) widths gap := by
  simp only [childrenSpan_rat, List.map_cons, List.sum_cons, List.length_cons, Nat.add_sub_cancel, Nat.cast_add, Nat.cast_one]
  ring

theorem childrenSpan_nonneg (hgap : 0 ≤ gap) (hw : ∀ c ∈ ids, 0 ≤ widths.get c) : 0 ≤ childrenSpan ids widths gap := by
  rw [childrenSpan_rat]
  refine add_nonneg (List.sum_nonneg ?_) (mul_nonneg (Nat.cast_nonneg _) hgap)
  exact List.forall_mem_map.mpr hw

namespace SideBySide

/-- Slots side by side begin where they are to begin, or further right. -/
theorem edge_le (h : SideBySide left widths.get gap edge ids) (hgap : 0 ≤ gap) (hw : ∀ c ∈ ids, 0 ≤ widths.get c) :
    ∀ c ∈ ids, edge ≤ left c := by
  induction h with
  | nil => exact fun c hc => absurd hc List.not_mem_nil
  | cons hc _ ih =>
    obtain ⟨hfirst, hrest⟩ := List.forall_mem_cons.mp hw
    refine List.forall_mem_cons.mpr ⟨hc.ge, fun d hd => ?_⟩
    have hle := ih hrest d hd
    linarith

theorem first_begin {width : NodeId → Rat} (h : SideBySide left width gap edge ids) (hfirst : ids.head? = some c) :
    left c = edge := by
  cases h with
  | nil => cases hfirst
  | cons hc _ => exact Option.some.inj hfirst ▸ hc

/-- Slots side by side leave the gap between them. -/
theorem pairwise (h : SideBySide left widths.get gap edge ids) (hgap : 0 ≤ gap) (hw : ∀ c ∈ ids, 0 ≤ widths.get c) :
    ids.Pairwise (fun c d => left c + widths.get c + gap ≤ left d) := by
  induction h with
  | nil => exact List.Pairwise.nil
  | cons hc hrest ih =>
    obtain ⟨-, hw⟩ := List.forall_mem_cons.mp hw
    refine List.pairwise_cons.mpr ⟨fun d hd => ?_, ih hw⟩
    have hle := hrest.edge_le hgap hw d hd
    linarith

/-- The last of several slots side by side ends where their span does. -/
theorem last_end (h : SideBySide left widths.get gap edge ids) (hlast : ids.getLast? = some c) :
    left c + widths.get c = edge + childrenSpan ids widths gap := by
  induction h with
  | nil => cases hlast
  | @cons edge d rest hd _ ih =>
    cases rest with
    | nil =>
      obtain rfl : d = c := Option.some.inj hlast
      rw [childrenSpan_singleton, hd]
    | cons e rest =>
      rw [List.getLast?_cons_cons] at hlast
      rw [ih hlast, childrenSpan_cons_cons]
      ring

/-- Slots side by side end within their span. -/
theorem le_end (h : SideBySide left widths.get gap edge ids) (hgap : 0 ≤ gap) (hw : ∀ c ∈ ids, 0 ≤ widths.get c) :
    ∀ c ∈ ids, left c + widths.get c ≤ edge + childrenSpan ids widths gap := by
  induction h with
  | nil => exact fun c hc => absurd hc List.not_mem_nil
  | @cons edge d rest hd hrest ih =>
    obtain ⟨-, hw⟩ := List.forall_mem_cons.mp hw
    cases rest with
    | nil =>
      rw [List.forall_mem_singleton, childrenSpan_singleton, hd]
    | cons e rest =>
      have hspan := childrenSpan_nonneg hgap hw
      rw [childrenSpan_cons_cons]
      refine List.forall_mem_cons.mpr ⟨by linarith, fun c hc => ?_⟩
      have hle := ih hw c hc
      linarith

/-- Slots are no wider than their span. -/
theorem width_le (h : SideBySide left widths.get gap edge ids) (hgap : 0 ≤ gap) (hw : ∀ c ∈ ids, 0 ≤ widths.get c) :
    ∀ c ∈ ids, widths.get c ≤ childrenSpan ids widths gap := by
  intro c hc
  have hbegin := h.edge_le hgap hw c hc
  have hend := h.le_end hgap hw c hc
  linarith

end SideBySide

/-- The slots of the children have the room that their span needs, and the slot of the node has that room. -/
theorem childrenEdge_bounds (widths : Table Rat) (gap : Rat) (n : Node Rat) (left : Rat) :
    left ≤ childrenEdge widths gap n left ∧
      childrenEdge widths gap n left + childrenSpan n.visibleChildren widths gap ≤
        left + max n.width (childrenSpan n.visibleChildren widths gap) := by
  have hmax := le_max_left n.width (childrenSpan n.visibleChildren widths gap)
  have hspan := le_max_right n.width (childrenSpan n.visibleChildren widths gap)
  rw [childrenEdge, Quantity.half_rat]
  split
  · rename_i hlt
    rw [Quantity.lt_rat_iff] at hlt
    constructor <;> linarith
  · constructor <;> linarith

theorem childrenEdge_of_le (hle : n.width ≤ childrenSpan n.visibleChildren widths gap) (left : Rat) :
    childrenEdge widths gap n left = left := by
  rw [childrenEdge, if_neg]
  rw [Quantity.lt_rat_iff]
  exact not_lt.mpr hle

end Spans

/-! ## Slots -/

section Slots

variable {t : Tree Rat} {gap : Rat} {i c r : NodeId} {n : Node Rat}

/-- The left edge of the slot of a node. -/
def slotLeft (t : Tree Rat) (gap : Rat) (i : NodeId) : Rat := (slotEdges t gap).get i

/-- The right edge of the slot of a node. -/
def slotRight (t : Tree Rat) (gap : Rat) (i : NodeId) : Rat := slotLeft t gap i + (slotWidths t gap).get i

theorem slotLeft_root (h : t.Spanning) (gap : Rat) (hr : t.root = some r) : slotLeft t gap r = 0 :=
  (places_root h (slotWidths t gap) gap hr).trans Quantity.zero_rat

/-- The slot of a node that shows no children is as wide as the node. -/
theorem slotWidth_leaf (h : t.Spanning) (hi : i ∈ t.visiblePreOrder) (hn : t.get? i = some n) (hnone : n.visibleChildren = []) :
    (slotWidths t gap).get i = n.width := by
  rw [slotWidths, subtreeWidths_eq h gap hi hn, hnone]
  rfl

/-- The slot of a node that shows children is as wide as the node, or as their span if that is wider. -/
theorem slotWidth_parent (h : t.Spanning) (hi : i ∈ t.visiblePreOrder) (hn : t.get? i = some n)
    (hshows : n.visibleChildren ≠ []) :
    (slotWidths t gap).get i = max n.width (childrenSpan n.visibleChildren (slotWidths t gap) gap) := by
  rw [slotWidths, subtreeWidths_eq h gap hi hn, if_neg (by rwa [List.isEmpty_iff]), Quantity.max_rat]

theorem width_le_slotWidth (h : t.Spanning) (gap : Rat) (hi : i ∈ t.visiblePreOrder) (hn : t.get? i = some n) :
    n.width ≤ (slotWidths t gap).get i := by
  by_cases hshows : n.visibleChildren = []
  · exact (slotWidth_leaf h hi hn hshows).ge
  · rw [slotWidth_parent h hi hn hshows]
    exact le_max_left _ _

/-- The slots of the children that a node shows. -/
theorem slots_sideBySide (h : t.Spanning) (gap : Rat) (hi : i ∈ t.visiblePreOrder) (hn : t.get? i = some n) :
    SideBySide (slotLeft t gap) (slotWidths t gap).get gap (childrenEdge (slotWidths t gap) gap n (slotLeft t gap i))
      n.visibleChildren :=
  places_sideBySide h (slotWidths t gap) gap hi hn

variable (h : t.Spanning) (hgap : 0 ≤ gap) (hw : ∀ i ∈ t.visiblePreOrder, 0 ≤ widthOf t i)
include h hgap hw

omit hgap in
theorem slotWidth_nonneg (hi : i ∈ t.visiblePreOrder) : 0 ≤ (slotWidths t gap).get i := by
  obtain ⟨n, hn, -⟩ := h.visible_node hi
  have hpos := hw i hi
  rw [widthOf_eq hn] at hpos
  exact hpos.trans (width_le_slotWidth h gap hi hn)

omit hgap in
theorem slotWidth_children_nonneg (hi : i ∈ t.visiblePreOrder) (hn : t.get? i = some n) :
    ∀ c ∈ n.visibleChildren, 0 ≤ (slotWidths t gap).get c :=
  fun _ hc => slotWidth_nonneg h hw (h.visible_child hi hn hc)

/-- The slots of the children lie within that of the node. -/
theorem slot_child (hi : i ∈ t.visiblePreOrder) (hn : t.get? i = some n) (hc : c ∈ n.visibleChildren) :
    slotLeft t gap i ≤ slotLeft t gap c ∧ slotRight t gap c ≤ slotRight t gap i := by
  have hside := slots_sideBySide h gap hi hn
  have hnonneg : ∀ c ∈ n.visibleChildren, 0 ≤ (slotWidths t gap).get c := slotWidth_children_nonneg h hw hi hn
  obtain ⟨hbegin, hend⟩ := childrenEdge_bounds (slotWidths t gap) gap n (slotLeft t gap i)
  have hleft := hside.edge_le hgap hnonneg c hc
  have hright := hside.le_end hgap hnonneg c hc
  rw [slotRight, slotRight, slotWidth_parent h hi hn (List.ne_nil_of_mem hc)]
  exact ⟨hbegin.trans hleft, hright.trans hend⟩

/-- The slots of what is visible below a node lie within that of the node. -/
theorem slot_below (hi : i ∈ t.visiblePreOrder) :
    ∀ j ∈ t.visibleSubtree i, slotLeft t gap i ≤ slotLeft t gap j ∧ slotRight t gap j ≤ slotRight t gap i := by
  refine h.upward (P := fun i => i ∈ t.visiblePreOrder → ∀ j ∈ t.visibleSubtree i,
    slotLeft t gap i ≤ slotLeft t gap j ∧ slotRight t gap j ≤ slotRight t gap i) (fun i n hn hchildren hi j hj => ?_)
    (h.lt_size_of_visible hi) hi
  rw [h.visibleSubtree_eq hn] at hj
  rcases List.mem_cons.mp hj with rfl | hj
  · exact ⟨le_refl _, le_refl _⟩
  · obtain ⟨c, hc, hjc⟩ := List.mem_flatMap.mp hj
    obtain ⟨hleft, hright⟩ := slot_child h hgap hw hi hn hc
    obtain ⟨hleft', hright'⟩ := hchildren c hc (h.visible_child hi hn hc) j hjc
    exact ⟨hleft.trans hleft', hright'.trans hright⟩

/-- Of two visible nodes the later one lies below the earlier one, or its slot lies to the right, with the gap between them. -/
theorem slots_in_order :
    t.visiblePreOrder.Pairwise (fun a b => b ∈ t.visibleSubtree a ∨ slotRight t gap a + gap ≤ slotLeft t gap b) := by
  cases hr : t.root with
  | none =>
    rw [visiblePreOrder, hr]
    exact List.Pairwise.nil
  | some r =>
    have hvisible := h.root_visible hr
    rw [visiblePreOrder_root hr]
    refine h.upward (P := fun i => i ∈ t.visiblePreOrder → (t.visibleSubtree i).Pairwise
      (fun a b => b ∈ t.visibleSubtree a ∨ slotRight t gap a + gap ≤ slotLeft t gap b)) (fun i n hn hchildren hi => ?_)
      (h.lt_size_of_visible hvisible) hvisible
    have hbelow : ∀ c ∈ n.visibleChildren, ∀ a ∈ t.visibleSubtree c,
        slotLeft t gap c ≤ slotLeft t gap a ∧ slotRight t gap a ≤ slotRight t gap c :=
      fun c hc => slot_below h hgap hw (h.visible_child hi hn hc)
    have hsiblings := (slots_sideBySide h gap hi hn).pairwise hgap (slotWidth_children_nonneg h hw hi hn)
    rw [h.visibleSubtree_eq hn, List.pairwise_cons, List.pairwise_flatMap]
    refine ⟨fun b hb => Or.inl ?_, fun c hc => hchildren c hc (h.visible_child hi hn hc), ?_⟩
    · rw [h.visibleSubtree_eq hn]
      exact List.mem_cons_of_mem i hb
    · refine hsiblings.imp_of_mem (fun {c d} hc hd hcd a ha b hb => Or.inr ?_)
      have hca := (hbelow c hc a ha).2
      have hdb := (hbelow d hd b hb).1
      exact (add_le_add_left hca gap).trans (hcd.trans hdb)

end Slots

end DaxPlan.Layout
