import DaxPlan.Layout.Bounds
import DaxPlan.Proofs.Layout.Frame
import DaxPlan.Proofs.Number.Exact
import DaxPlan.Proofs.Outline.TextualOrder
import Mathlib.Order.Bounds.Basic

/-!
# Rectangles around rectangles

A rectangle is stored by a corner and its size, and every join works out the far corner and the size anew. Told by its four edges
a join is the smaller of two on the left and at the top and the larger on the right and at the bottom: so rectangles are ordered
by their edges, and the join of two is their least upper bound. What is joined from several is therefore the least rectangle that
is around all of them, in whatever order and however often they are joined (`unionAll_eq_some_iff`), and each of its edges is an
edge of one of them (`unionAll_touched`). For rectangles of no negative size the order is the inclusion of their points, and the
bounds of a plan are the smallest rectangle around what is visible (`bounds_tight`).
-/

namespace DaxPlan.Layout

open DaxPlan.Tree

namespace Bounds

variable {a b c : Bounds Rat} {all : List (Bounds Rat)} {q : Point Rat}

/-! ## Edges -/

/-- The right edge. -/
def right (b : Bounds Rat) : Rat := b.x + b.width

/-- The bottom edge. -/
def bottom (b : Bounds Rat) : Rat := b.y + b.height

/-- A rectangle is told by its edges. -/
theorem ext_edges (hx : a.x = b.x) (hright : a.right = b.right) (hy : a.y = b.y) (hbottom : a.bottom = b.bottom) : a = b := by
  obtain ⟨x, y, width, height⟩ := a
  obtain ⟨x', y', width', height'⟩ := b
  simp only [right, bottom] at hx hright hy hbottom
  subst hx hy
  rw [add_left_cancel hright, add_left_cancel hbottom]

@[simp] theorem union_x (a b : Bounds Rat) : (a.union b).x = min a.x b.x := Quantity.min_rat a.x b.x

@[simp] theorem union_y (a b : Bounds Rat) : (a.union b).y = min a.y b.y := Quantity.min_rat a.y b.y

@[simp] theorem union_right (a b : Bounds Rat) : (a.union b).right = max a.right b.right := by
  rw [← Quantity.max_rat]
  exact add_sub_cancel _ _

@[simp] theorem union_bottom (a b : Bounds Rat) : (a.union b).bottom = max a.bottom b.bottom := by
  rw [← Quantity.max_rat]
  exact add_sub_cancel _ _

/-! ## The order -/

/-- One rectangle lies within another, edge by edge. -/
instance : PartialOrder (Bounds Rat) where
  le a b := b.x ≤ a.x ∧ a.right ≤ b.right ∧ b.y ≤ a.y ∧ a.bottom ≤ b.bottom
  le_refl a := ⟨le_rfl, le_rfl, le_rfl, le_rfl⟩
  le_trans a b c h h' := ⟨h'.1.trans h.1, h.2.1.trans h'.2.1, h'.2.2.1.trans h.2.2.1, h.2.2.2.trans h'.2.2.2⟩
  le_antisymm a b h h' := ext_edges (le_antisymm h'.1 h.1) (le_antisymm h.2.1 h'.2.1) (le_antisymm h'.2.2.1 h.2.2.1)
    (le_antisymm h.2.2.2 h'.2.2.2)

theorem le_iff : a ≤ b ↔ b.x ≤ a.x ∧ a.right ≤ b.right ∧ b.y ≤ a.y ∧ a.bottom ≤ b.bottom := Iff.rfl

/-- Around two rectangles is what is around the rectangle around them. -/
theorem union_le_iff : a.union b ≤ c ↔ a ≤ c ∧ b ≤ c := by
  simp only [le_iff, union_x, union_y, union_right, union_bottom, le_min_iff, max_le_iff]
  tauto

instance : SemilatticeSup (Bounds Rat) where
  sup := union
  le_sup_left _ _ := (union_le_iff.mp le_rfl).1
  le_sup_right _ _ := (union_le_iff.mp le_rfl).2
  sup_le _ _ _ ha hb := union_le_iff.mpr ⟨ha, hb⟩

/-! ## Several rectangles -/

theorem foldl_union_le_iff (first : Bounds Rat) (rest : List (Bounds Rat)) :
    rest.foldl union first ≤ c ↔ ∀ b ∈ first :: rest, b ≤ c := by
  induction rest generalizing first with
  | nil => simp
  | cons next rest ih =>
    rw [List.foldl_cons, ih, List.forall_mem_cons, union_le_iff, List.forall_mem_cons, List.forall_mem_cons, and_assoc]

theorem unionAll_eq_none_iff : unionAll all = none ↔ all = [] := by
  cases all with
  | nil => exact ⟨fun _ => rfl, fun _ => rfl⟩
  | cons first rest => exact ⟨fun h => absurd h (Option.some_ne_none _), fun h => absurd h (List.cons_ne_nil _ _)⟩

/-- What is joined from several is the least rectangle around them. -/
theorem isLUB_of_unionAll (h : unionAll all = some b) : IsLUB {r | r ∈ all} b := by
  cases all with
  | nil => cases h
  | cons first rest =>
    obtain rfl : rest.foldl union first = b := Option.some.inj h
    exact ⟨(foldl_union_le_iff first rest).mp le_rfl, fun c hc => (foldl_union_le_iff first rest).mpr hc⟩

theorem unionAll_eq_some_iff : unionAll all = some b ↔ all ≠ [] ∧ IsLUB {r | r ∈ all} b := by
  refine ⟨fun h => ⟨fun hnil => ?_, isLUB_of_unionAll h⟩, fun ⟨hall, hb⟩ => ?_⟩
  · rw [unionAll_eq_none_iff.mpr hnil] at h
    cases h
  · obtain ⟨c, hc⟩ := Option.ne_none_iff_exists'.mp (mt unionAll_eq_none_iff.mp hall)
    rw [hc, (isLUB_of_unionAll hc).unique hb]

/-- Neither the order nor repetitions show in what is joined. -/
theorem unionAll_congr {others : List (Bounds Rat)} (h : ∀ r, r ∈ all ↔ r ∈ others) : unionAll all = unionAll others := by
  have hset : {r | r ∈ all} = {r | r ∈ others} := Set.ext h
  cases hothers : unionAll others with
  | none =>
    rw [unionAll_eq_none_iff] at hothers ⊢
    exact List.eq_nil_iff_forall_not_mem.mpr (fun r hr => by simpa [hothers] using (h r).mp hr)
  | some b =>
    obtain ⟨hne, hlub⟩ := unionAll_eq_some_iff.mp hothers
    obtain ⟨r, hr⟩ := List.exists_mem_of_ne_nil others hne
    exact unionAll_eq_some_iff.mpr ⟨List.ne_nil_of_mem ((h r).mpr hr), hset ▸ hlub⟩

/-- An edge of which a join takes one of two is, after several joins, that of one of the rectangles. -/
theorem exists_edge (edge : Bounds Rat → Rat) (hedge : ∀ a b, edge (a.union b) = edge a ∨ edge (a.union b) = edge b)
    (h : unionAll all = some b) : ∃ r ∈ all, edge r = edge b := by
  cases all with
  | nil => cases h
  | cons first rest =>
    obtain rfl : rest.foldl union first = b := Option.some.inj h
    clear h
    -- the first rectangle varies: after a step it is a join, whose edge goes back to one of the two
    induction rest generalizing first with
    | nil => exact ⟨first, List.mem_cons_self, rfl⟩
    | cons next rest ih =>
      obtain ⟨r, hr, heq⟩ := ih (first.union next)
      rw [List.foldl_cons, ← heq]
      rcases List.mem_cons.mp hr with rfl | hr
      · rcases hedge first next with hfirst | hnext
        · exact ⟨first, List.mem_cons_self, hfirst.symm⟩
        · exact ⟨next, List.mem_cons_of_mem _ List.mem_cons_self, hnext.symm⟩
      · exact ⟨r, List.mem_cons_of_mem _ (List.mem_cons_of_mem _ hr), rfl⟩

/-- Each edge of what is joined is that of one of the rectangles. -/
theorem unionAll_touched (h : unionAll all = some b) : (∃ r ∈ all, r.x = b.x) ∧ (∃ r ∈ all, r.right = b.right) ∧
    (∃ r ∈ all, r.y = b.y) ∧ ∃ r ∈ all, r.bottom = b.bottom := by
  refine ⟨exists_edge Bounds.x (fun a b => ?_) h, exists_edge right (fun a b => ?_) h,
    exists_edge Bounds.y (fun a b => ?_) h, exists_edge bottom (fun a b => ?_) h⟩
  · rw [union_x]
    exact min_choice _ _
  · rw [union_right]
    exact max_choice _ _
  · rw [union_y]
    exact min_choice _ _
  · rw [union_bottom]
    exact max_choice _ _

/-! ## Points -/

/-- A point lies in a rectangle, its edges included. -/
def Covers (b : Bounds Rat) (q : Point Rat) : Prop := (b.x ≤ q.x ∧ q.x ≤ b.right) ∧ b.y ≤ q.y ∧ q.y ≤ b.bottom

theorem Covers.of_le (h : a ≤ b) (hq : a.Covers q) : b.Covers q :=
  ⟨⟨h.1.trans hq.1.1, hq.1.2.trans h.2.1⟩, h.2.2.1.trans hq.2.1, hq.2.2.trans h.2.2.2⟩

/-- A rectangle of no negative size lies within another if all its points do. -/
theorem le_of_covers (hwidth : 0 ≤ a.width) (hheight : 0 ≤ a.height) (h : ∀ q, a.Covers q → b.Covers q) : a ≤ b := by
  have hright : a.x ≤ a.right := le_add_of_nonneg_right hwidth
  have hbottom : a.y ≤ a.bottom := le_add_of_nonneg_right hheight
  obtain ⟨⟨hx, -⟩, hy, -⟩ := h ⟨a.x, a.y⟩ ⟨⟨le_rfl, hright⟩, le_rfl, hbottom⟩
  obtain ⟨⟨-, hx'⟩, -, hy'⟩ := h ⟨a.right, a.bottom⟩ ⟨⟨hright, le_rfl⟩, hbottom, le_rfl⟩
  exact ⟨hx, hx', hy, hy'⟩

end Bounds

/-! ## The bounds of a plan -/

/-- What a walk lists is there, so a walk without nodes is empty. -/
theorem nodesAt_visible_eq_nil_iff {α : Type} {t : Tree α} : t.nodesAt t.visiblePreOrder = [] ↔ t.visiblePreOrder = [] := by
  refine ⟨fun h => List.eq_nil_iff_forall_not_mem.mpr (fun i hi => ?_), fun h => by rw [h]; rfl⟩
  cases hr : t.root with
  | none => simp [visiblePreOrder, hr] at hi
  | some r =>
    obtain ⟨n, hn⟩ := exists_node_of_mem_walkFrom (visiblePreOrder_root hr ▸ hi)
    exact absurd (hn.symm.trans (List.filterMap_eq_nil_iff.mp h i hi)) (Option.some_ne_none n)

/-- The bounds of a plan are the smallest rectangle around the visible nodes. There are none just if no node is visible. Else
every point of a visible node lies in them, each of their four sides is a side of a visible node, and whatever covers all visible
nodes covers them. They are the same in whatever order the rectangles are joined: joining is associative, commutative and
idempotent. -/
theorem bounds_tight (p : Plan Rat)
    (hsizes : ∀ n ∈ p.tree.nodesAt p.tree.visiblePreOrder, 0 ≤ n.width ∧ 0 ≤ n.height) :
    let shown := p.tree.nodesAt p.tree.visiblePreOrder
    (p.bounds = none ↔ p.tree.visiblePreOrder = []) ∧
      (∀ b, p.bounds = some b →
        (∀ n ∈ shown, ∀ q, (Bounds.ofNode n).Covers q → b.Covers q) ∧
        ((∃ n ∈ shown, n.x = b.x) ∧ (∃ n ∈ shown, n.x + n.width = b.x + b.width) ∧
          (∃ n ∈ shown, n.y = b.y) ∧ ∃ n ∈ shown, n.y + n.height = b.y + b.height) ∧
        ∀ c : Bounds Rat, (∀ n ∈ shown, ∀ q, (Bounds.ofNode n).Covers q → c.Covers q) → ∀ q, b.Covers q → c.Covers q) ∧
      (∀ all : List (Bounds Rat), (∀ r, r ∈ all ↔ ∃ n ∈ shown, Bounds.ofNode n = r) → Bounds.unionAll all = p.bounds) ∧
      ∀ a b c : Bounds Rat, (a.union b).union c = a.union (b.union c) ∧ a.union b = b.union a ∧ a.union a = a := by
  intro shown
  have hmem : ∀ r, r ∈ shown.map Bounds.ofNode ↔ ∃ n ∈ shown, Bounds.ofNode n = r := fun r => List.mem_map
  refine ⟨?_, fun b hb => ⟨fun n hn q hq => ?_, ?_, fun c hc q hq => ?_⟩, fun all hall => ?_, fun a b c => ?_⟩
  · rw [Plan.bounds, Bounds.unionAll_eq_none_iff, List.map_eq_nil_iff, nodesAt_visible_eq_nil_iff]
  · exact hq.of_le ((Bounds.isLUB_of_unionAll hb).1 (List.mem_map_of_mem hn))
  · have hside : ∀ {edge : Bounds Rat → Rat}, (∃ r ∈ shown.map Bounds.ofNode, edge r = edge b) →
        ∃ n ∈ shown, edge (Bounds.ofNode n) = edge b := by
      rintro edge ⟨r, hr, hedge⟩
      obtain ⟨n, hn, rfl⟩ := List.mem_map.mp hr
      exact ⟨n, hn, hedge⟩
    obtain ⟨hx, hright, hy, hbottom⟩ := Bounds.unionAll_touched hb
    exact ⟨hside hx, hside hright, hside hy, hside hbottom⟩
  · refine hq.of_le ((Bounds.isLUB_of_unionAll hb).2 (fun r hr => ?_))
    obtain ⟨n, hn, rfl⟩ := List.mem_map.mp hr
    exact Bounds.le_of_covers (hsizes n hn).1 (hsizes n hn).2 (hc n hn)
  · exact Bounds.unionAll_congr (fun r => (hall r).trans (hmem r).symm)
  · exact ⟨sup_assoc a b c, sup_comm a b, sup_idem a⟩

/-- A node left of zero beside one right of it, and one far away that is hidden below the latter. The bounds are the same if the
visible ones are joined from the last to the first. -/
theorem bounds_tight_left_of_zero :
    let row (level : Nat) : Row := ⟨1, level, "", "", .unknown, none, none⟩
    let put (id : NodeId) (x y width : Rat) (t : Tree Rat) : Tree Rat :=
      t.modify id (fun n => { n with x, y, width, height := 60 })
    let t := (Tree.ofRows ([0, 1, 1, 2].map row)).setCollapsed 2 true
    let p : Plan Rat := Plan.parsed .physical "" (put 0 10 0 180 (put 1 (-30) 108 20 (put 2 40 108 900 (put 3 5000 216 180 t))))
    (∀ n ∈ p.tree.nodesAt p.tree.visiblePreOrder, 0 ≤ n.width ∧ 0 ≤ n.height) ∧
      p.bounds.map (fun b => (b.x, b.y, b.width, b.height)) = some (-30, 0, 970, 168) ∧
      Bounds.unionAll ((p.tree.nodesAt p.tree.visiblePreOrder).map Bounds.ofNode).reverse = p.bounds := by
  intro row put t p
  have hsizes : ∀ n ∈ p.tree.nodesAt p.tree.visiblePreOrder, 0 ≤ n.width ∧ 0 ≤ n.height := by decide +kernel
  obtain ⟨-, -, hjoined, -⟩ := bounds_tight p hsizes
  refine ⟨hsizes, by decide +kernel, hjoined _ (fun r => ?_)⟩
  rw [List.mem_reverse, List.mem_map]

end DaxPlan.Layout
