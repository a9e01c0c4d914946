import DaxPlan.Proofs.Layout.Separation

/-!
# Two layouts side by side

A layout reads the geometry it finds: sizes when widths are added up, the left edges of children when a parent is put over them,
left edges and widths when a level is swept. What it reads it has written before, but for the sizes that nodes have of their own.
So two trees that agree in the sizes, in the links and in the collapse flags come out of a layout alike, whatever stood in their
nodes (`arrange_congr`). The trees are followed through the passes side by side: after the sizes are given their visible nodes
differ in the position at most (`sizes_alike`), after they are placed not at all (`place_alike`), and from then on every step
does the same to both.

No law of arithmetic is used: the quantities may be floating-point numbers.
-/

namespace DaxPlan

/-- A node with the standard size where it has none, and without its position: what a layout takes over from before. -/
def Node.sized {α : Type} [Quantity α] (config : LayoutConfig α) (n : Node α) : Node α :=
  (Layout.applyDefaultSize config n).unplaced

namespace Layout

open DaxPlan.Tree

variable {α : Type} [Quantity α] {config : LayoutConfig α} {t t' : Tree α} {order placed ids : List NodeId} {i id : NodeId}

/-! ## Trees alike -/

/-- Two trees differ in the geometry of their nodes alone: the nodes of a walk have the same size, and some of them the same
position as well. -/
structure Alike (order placed : List NodeId) (t t' : Tree α) : Prop where
  bare : Agrees Node.bare t t'
  sizes : ∀ i ∈ order, (t'.get? i).map Node.unplaced = (t.get? i).map Node.unplaced
  same : ∀ i ∈ placed, t'.get? i = t.get? i

/-- Trees with the same nodes but for their geometry show the same children. -/
theorem visibleChildren_congr (h : Agrees Node.bare t t') (id : NodeId) : visibleChildren t' id = visibleChildren t id := by
  have hnext : Agrees Node.visibleChildren t t' := h.view Node.visibleChildren (fun _ => rfl)
  rw [visibleChildren, hnext.2 id, visibleChildren]

/-- The children that a node shows. -/
theorem visibleChildren_eq {α : Type} {t : Tree α} {id : NodeId} {n : Node α} (h : t.get? id = some n) :
    visibleChildren t id = n.visibleChildren := by
  rw [visibleChildren, h]
  rfl

/-- Without places and sizes a node has no geometry. -/
theorem bare_unplaced (n : Node α) : n.bare = n.unplaced.unsized := rfl

/-- Nodes that differ in the position alone tell the same of everything else. -/
theorem eq_of_unplaced_eq {β : Type} {n n' : Node α} (h : n'.unplaced = n.unplaced) (f : Node α → β)
    (hf : ∀ n, f n = f n.unplaced) : f n' = f n := by
  rw [hf n', h, hf n]

namespace Alike

/-- The same is done to a node of both trees. -/
theorem modify (h : Alike order placed t t') (id : NodeId) (g : Node α → Node α) (hg : ∀ n, (g n).unplaced = n.unplaced) :
    Alike order placed (t.modify id g) (t'.modify id g) := by
  have hbare : ∀ u : Tree α, Agrees Node.bare u (u.modify id g) :=
    fun u => (Agrees.modify u id g hg).view Node.unsized bare_unplaced
  refine ⟨((hbare t).symm.trans h.bare).trans (hbare t'), fun i hi => ?_, fun i hi => ?_⟩
  · rw [(Agrees.modify t' id g hg).2 i, (Agrees.modify t id g hg).2 i]
    exact h.sizes i hi
  · rw [get?_modify, get?_modify, h.same i hi]

/-- The same is done to several nodes of both trees. -/
theorem foldl_modify (h : Alike order placed t t') (g : Node α → Node α) (hg : ∀ n, (g n).unplaced = n.unplaced) :
    Alike order placed (ids.foldl (fun t id => t.modify id g) t) (ids.foldl (fun t id => t.modify id g) t') := by
  induction ids generalizing t t' with
  | nil => exact h
  | cons id ids ih => exact ih (h.modify id g hg)

end Alike

/-! ## Sizes -/

/-- A size once given is kept. -/
theorem applyDefaultSize_twice (config : LayoutConfig α) (n : Node α) :
    applyDefaultSize config (applyDefaultSize config n) = applyDefaultSize config n := by
  by_cases hwidth : Quantity.le n.width Quantity.zero = true <;> by_cases hheight : Quantity.le n.height Quantity.zero = true <;>
    simp [applyDefaultSize, hwidth, hheight]

/-- The nodes of a list get the default size where they have none. -/
theorem get?_applyDefaultSizes (h : order.Nodup) (t : Tree α) (i : NodeId) :
    (applyDefaultSizes config order t).get? i =
      if i ∈ order then (t.get? i).map (applyDefaultSize config) else t.get? i :=
  get?_foldl_modify (fun _ => applyDefaultSize config) order h t i

/-- Trees that agree in what a layout takes over are alike once the visible nodes have their sizes. -/
theorem sizes_alike (h : Agrees (Node.sized config) t t') (horder : order.Nodup) :
    Alike order [] (applyDefaultSizes config order t) (applyDefaultSizes config order t') := by
  have hbare : ∀ u : Tree α, Agrees Node.bare u (applyDefaultSizes config order u) :=
    fun u => (applyDefaultSizes_agrees config order u).view Node.unplaced (fun _ => rfl)
  have hsized : Agrees Node.bare t t' := h.view Node.unsized (fun _ => rfl)
  refine ⟨((hbare t).symm.trans hsized).trans (hbare t'), fun i hi => ?_, fun i hi => absurd hi List.not_mem_nil⟩
  rw [get?_applyDefaultSizes horder, get?_applyDefaultSizes horder, if_pos hi, if_pos hi, Option.map_map, Option.map_map]
  exact h.2 i

/-! ## Places -/

namespace Alike

/-- The nodes at a place of the walk, which agree in all but the position. -/
theorem get? (h : Alike order placed t t') (hi : i ∈ order) :
    (t.get? i = none ∧ t'.get? i = none) ∨
      ∃ n n', t.get? i = some n ∧ t'.get? i = some n' ∧ n'.unplaced = n.unplaced := by
  have hsizes := h.sizes i hi
  cases hn : t.get? i with
  | none =>
    rw [hn, Option.map_none, Option.map_eq_none_iff] at hsizes
    exact Or.inl ⟨rfl, hsizes⟩
  | some n =>
    rw [hn, Option.map_some, Option.map_eq_some_iff] at hsizes
    obtain ⟨n', hn', he⟩ := hsizes
    exact Or.inr ⟨n, n', rfl, hn', he⟩

/-- Trees that are alike have the same width noted for a node. -/
theorem noteWidth (h : Alike order placed t t') (hi : i ∈ order) (spacing : α) (widths : Table α) :
    noteWidth t' spacing i widths = noteWidth t spacing i widths := by
  unfold Layout.noteWidth
  rcases h.get? hi with ⟨hn, hn'⟩ | ⟨n, n', hn, hn', he⟩
  · rw [hn, hn']
  · have hchildren : n'.visibleChildren = n.visibleChildren := eq_of_unplaced_eq he Node.visibleChildren (fun _ => rfl)
    have hwidth : n'.width = n.width := eq_of_unplaced_eq he Node.width (fun _ => rfl)
    simp only [hn, hn', hchildren, hwidth]

/-- Trees that are alike have the same table of widths. -/
theorem subtreeWidths (h : Alike order placed t t') (spacing : α) :
    subtreeWidths t' order spacing = subtreeWidths t order spacing := by
  unfold Layout.subtreeWidths
  rw [h.bare.size_eq]
  exact List.foldr_ext _ _ _ (fun i hi widths => h.noteWidth hi spacing widths)

/-- Trees that are alike have the same places handed out below a node. -/
theorem handOutBelow (h : Alike order placed t t') (hi : i ∈ order) (widths : Table α) (spacing : α) (places : Table α) :
    handOutBelow t' widths spacing places i = handOutBelow t widths spacing places i := by
  unfold Layout.handOutBelow
  rcases h.get? hi with ⟨hn, hn'⟩ | ⟨n, n', hn, hn', he⟩
  · rw [hn, hn']
  · have hchildren : n'.visibleChildren = n.visibleChildren := eq_of_unplaced_eq he Node.visibleChildren (fun _ => rfl)
    have hwidth : n'.width = n.width := eq_of_unplaced_eq he Node.width (fun _ => rfl)
    simp only [hn, hn', hchildren, hwidth]

/-- Trees that are alike have the same table of places. -/
theorem places (h : Alike order placed t t') (widths : Table α) (spacing : α) :
    places t' order widths spacing = places t order widths spacing := by
  unfold Layout.places
  rw [h.bare.size_eq]
  exact List.foldl_ext _ _ _ (fun places i hi => h.handOutBelow hi widths spacing places)

/-- A node comes to stand at the same place in both trees, if its children do. -/
theorem leftEdge (h : Alike order placed t t') {n n' : Node α} (he : n'.unplaced = n.unplaced)
    (hchildren : ∀ c ∈ n.visibleChildren, c ∈ placed) (widths places : Table α) (spacing : α) :
    leftEdge t' widths places spacing n' = leftEdge t widths places spacing n := by
  have hnext : n'.visibleChildren = n.visibleChildren := eq_of_unplaced_eq he Node.visibleChildren (fun _ => rfl)
  have hwidth : n'.width = n.width := eq_of_unplaced_eq he Node.width (fun _ => rfl)
  have hid : n'.id = n.id := eq_of_unplaced_eq he Node.id (fun _ => rfl)
  have hchild : ∀ c : Option NodeId, (∀ x, c = some x → x ∈ n.visibleChildren) → c.bind t'.get? = c.bind t.get? := by
    intro c hc
    cases c with
    | none => rfl
    | some c => exact h.same c (hchildren c (hc c rfl))
  unfold Layout.leftEdge
  rw [hnext, hwidth, hid, hchild _ (fun _ hx => List.mem_of_mem_head? hx), hchild _ (fun _ hx => List.mem_of_getLast? hx)]

/-- One more node is placed, after its children. -/
theorem placeNode (h : Alike order placed t t') (hi : i ∈ order) (hchildren : ∀ c ∈ Layout.visibleChildren t i, c ∈ placed)
    (widths places : Table α) :
    Alike order (i :: placed) (placeNode config widths places i t) (placeNode config widths places i t') := by
  unfold Layout.placeNode
  rcases h.get? hi with ⟨hn, hn'⟩ | ⟨n, n', hn, hn', he⟩
  · rw [hn, hn']
    refine ⟨h.bare, h.sizes, fun j hj => ?_⟩
    rcases List.mem_cons.mp hj with rfl | hj
    · rw [hn, hn']
    · exact h.same j hj
  · have hdepth : n'.depth = n.depth := eq_of_unplaced_eq he Node.depth (fun _ => rfl)
    rw [visibleChildren_eq hn] at hchildren
    simp only [hn, hn', h.leftEdge he hchildren, hdepth]
    generalize Layout.leftEdge t widths places config.horizontalSpacing n = x
    generalize Quantity.ofNat n.depth * config.levelHeight = y
    have hmodify := h.modify i (fun n => { n with x := x, y := y }) (fun _ => rfl)
    refine ⟨hmodify.bare, hmodify.sizes, fun j hj => ?_⟩
    rcases List.mem_cons.mp hj with rfl | hj
    · have hxy := congrArg (fun m : Node α => { m with x := x, y := y }) he
      rw [get?_modify, get?_modify, if_pos rfl, if_pos rfl, hn, hn']
      exact congrArg some hxy
    · exact hmodify.same j hj

end Alike

/-- In a walk each node comes before its visible children. -/
def ChildrenFollow (t : Tree α) (order : List NodeId) : Prop :=
  ∀ a i b, order = a ++ i :: b → ∀ c ∈ visibleChildren t i, c ∈ b

/-- In the visible walk children follow their parents. -/
theorem childrenFollow_visiblePreOrder {α : Type} {t : Tree α} (h : t.Spanning) : ChildrenFollow t t.visiblePreOrder := by
  intro a i b hab c hc
  obtain ⟨n, hn, -⟩ := h.visible_node (i := i) (by simp [hab])
  rw [visibleChildren_eq hn] at hc
  have hwalk := h.visiblePreOrder_spec.1
  rw [hab] at hwalk
  exact hwalk.next_after hn hc

/-- Children follow their parents in a tree with the same children too. -/
theorem ChildrenFollow.of_agrees (h : ChildrenFollow t order) (ha : Agrees Node.bare t t') : ChildrenFollow t' order := by
  intro a i b hab c hc
  rw [visibleChildren_congr ha] at hc
  exact h a i b hab c hc

/-- Placing the nodes of a walk from its end leaves no difference. -/
theorem place_alike (config : LayoutConfig α) (h : Alike order [] t t') (hfollow : ChildrenFollow t order) :
    Alike order order (place config order t) (place config order t') := by
  unfold place
  dsimp only
  rw [h.subtreeWidths, h.places]
  generalize subtreeWidths t order config.horizontalSpacing = widths
  generalize places t order widths config.horizontalSpacing = places
  have hsuffix : ∀ a b, order = a ++ b →
      Alike order b (b.foldr (placeNode config widths places) t) (b.foldr (placeNode config widths places) t') := by
    intro a b hab
    induction b generalizing a with
    | nil => exact h
    | cons i b ih =>
      have hrest := ih (a ++ [i]) (by rw [hab, List.append_assoc, List.singleton_append])
      have hbare : Agrees Node.bare t (b.foldr (placeNode config widths places) t) :=
        (Agrees.foldr _ (fun t id => placeNode_agrees config widths places id t) b t).view Node.unsized bare_unplaced
      refine hrest.placeNode (by simp [hab]) (fun c hc => ?_) widths places
      rw [visibleChildren_congr hbare] at hc
      exact hfollow a i b hab c hc
  exact hsuffix [] order rfl

/-! ## Overlaps -/

namespace Alike

/-- A node of the list has the same left edge in both. -/
theorem xOf (h : Alike order order t t') (hi : i ∈ order) : xOf t' i = xOf t i := by
  rw [Layout.xOf, h.same i hi, Layout.xOf]

/-- A node of the list has the same width in both. -/
theorem widthOf (h : Alike order order t t') (hi : i ∈ order) : widthOf t' i = widthOf t i := by
  rw [Layout.widthOf, h.same i hi, Layout.widthOf]

/-- The nodes of the list are the same in both. -/
theorem nodesAt (h : Alike order order t t') (hids : ∀ i ∈ ids, i ∈ order) : t'.nodesAt ids = t.nodesAt ids :=
  List.filterMap_congr (fun i hi => h.same i (hids i hi))

/-- Trees that are alike are alike after the same shift. -/
theorem shiftSubtree (h : Alike order order t t') (id : NodeId) (dx : α) :
    Alike order order (shiftSubtree t id dx) (shiftSubtree t' id dx) := by
  unfold Layout.shiftSubtree
  rw [visibleSubtree_congr (h.bare.view Node.visibleChildren (fun _ => rfl))]
  exact h.foldl_modify _ (fun _ => rfl)

/-- A sweep over a level shifts the same nodes by the same amounts. -/
theorem sweepLevel (config : LayoutConfig α) (h : Alike order order t t') (hids : ∀ i ∈ ids, i ∈ order) (shifts : Nat) :
    Alike order order (sweepLevel config ids (t, shifts)).1 (sweepLevel config ids (t', shifts)).1 ∧
      (sweepLevel config ids (t', shifts)).2 = (sweepLevel config ids (t, shifts)).2 := by
  induction ids generalizing t t' shifts with
  | nil => exact ⟨h, rfl⟩
  | cons left ids ih =>
    cases ids with
    | nil => exact ⟨h, rfl⟩
    | cons right rest =>
      have hleft : left ∈ order := hids left List.mem_cons_self
      have hright : right ∈ order := hids right (List.mem_cons_of_mem _ List.mem_cons_self)
      have hrest : ∀ i ∈ right :: rest, i ∈ order := fun i hi => hids i (List.mem_cons_of_mem _ hi)
      have hdeficit : deficit config t' left right = deficit config t left right := by
        rw [deficit, h.xOf hleft, h.widthOf hleft, h.xOf hright, deficit]
      simp only [Layout.sweepLevel, hdeficit]
      split
      · exact ih (h.shiftSubtree right _) hrest (shifts + 1)
      · exact ih h hrest shifts

/-- Trees that are alike have the same order from the left. -/
theorem fromLeft (h : Alike order order t t') (hids : ∀ i ∈ ids, i ∈ order) : fromLeft t' ids = fromLeft t ids := by
  have hsort := List.map_mergeSort (f := id)
    (r := fun a b => ((Quantity.order (Layout.xOf t' a) (Layout.xOf t' b)).then (compare a b)).isLE)
    (s := fun a b => ((Quantity.order (Layout.xOf t a) (Layout.xOf t b)).then (compare a b)).isLE) (l := ids)
    (fun a ha b hb => by rw [h.xOf (hids a ha), h.xOf (hids b hb)]; rfl)
  simp only [List.map_id] at hsort
  exact hsort

/-- A sweep over several levels shifts the same nodes by the same amounts. -/
theorem foldl_sweepNext {levels : List (List NodeId)} {r r' : Tree α × Nat} (h : Alike order order r.1 r'.1) (hr : r'.2 = r.2)
    (hlevels : ∀ ids ∈ levels, ∀ i ∈ ids, i ∈ order) :
    Alike order order (levels.foldl (sweepNext config) r).1 (levels.foldl (sweepNext config) r').1 ∧
      (levels.foldl (sweepNext config) r').2 = (levels.foldl (sweepNext config) r).2 := by
  induction levels generalizing r r' with
  | nil => exact ⟨h, hr⟩
  | cons ids levels ih =>
    obtain ⟨t, shifts⟩ := r
    obtain ⟨t', shifts'⟩ := r'
    obtain rfl : shifts' = shifts := hr
    have hids : ∀ i ∈ ids, i ∈ order := hlevels ids List.mem_cons_self
    have hsorted : ∀ i ∈ Layout.fromLeft t ids, i ∈ order := fun i hi => hids i (List.mem_mergeSort.mp hi)
    obtain ⟨hnext, hcount⟩ := h.sweepLevel config hsorted shifts'
    have hsweep : sweepNext config (t', shifts') ids = Layout.sweepLevel config (Layout.fromLeft t ids) (t', shifts') := by
      rw [sweepNext, h.fromLeft hids]
    rw [List.foldl_cons, List.foldl_cons, hsweep]
    exact ih hnext hcount (fun ids' hids' => hlevels ids' (List.mem_cons_of_mem _ hids'))

/-- A node is put over the same children, at the same place. -/
theorem recenterNode (h : Alike order order t t') (hfollow : ChildrenFollow t order) (hi : i ∈ order) :
    Alike order order (recenterNode t i) (recenterNode t' i) := by
  have hchildren : ∀ c ∈ Layout.visibleChildren t i, c ∈ order := by
    intro c hc
    obtain ⟨a, b, hab⟩ := List.append_of_mem hi
    have hcb := hfollow a i b hab c hc
    simp [hab, hcb]
  have hcenters : childCenters t' i = childCenters t i := by
    rw [childCenters, visibleChildren_congr h.bare, h.nodesAt hchildren, childCenters]
  unfold Layout.recenterNode
  rw [hcenters]
  split
  · exact h
  · exact h.modify i _ (fun _ => rfl)

/-- Trees that are alike are alike after some nodes are centred. -/
theorem foldl_recenterNode (h : Alike order order t t') (hfollow : ChildrenFollow t order) (hids : ∀ i ∈ ids, i ∈ order) :
    Alike order order (ids.foldl Layout.recenterNode t) (ids.foldl Layout.recenterNode t') := by
  induction ids generalizing t t' with
  | nil => exact h
  | cons i ids ih =>
    have hbare : Agrees Node.bare t (Layout.recenterNode t i) :=
      (recenterNode_agrees t i).view Node.bare (fun _ => rfl)
    exact ih (h.recenterNode hfollow (hids i List.mem_cons_self)) (hfollow.of_agrees hbare)
      (fun j hj => hids j (List.mem_cons_of_mem _ hj))

/-- Trees that are alike are alike after some levels are centred. -/
theorem foldl_recenterNodes {levels : List (List NodeId)} (h : Alike order order t t') (hfollow : ChildrenFollow t order)
    (hlevels : ∀ ids ∈ levels, ∀ i ∈ ids, i ∈ order) :
    Alike order order (levels.foldl (fun t ids => ids.foldl Layout.recenterNode t) t)
      (levels.foldl (fun t ids => ids.foldl Layout.recenterNode t) t') := by
  induction levels generalizing t t' with
  | nil => exact h
  | cons ids levels ih =>
    have hbare : Agrees Node.bare t (ids.foldl Layout.recenterNode t) :=
      (Agrees.foldl _ recenterNode_agrees ids t).view Node.bare (fun _ => rfl)
    exact ih (h.foldl_recenterNode hfollow (hlevels ids List.mem_cons_self)) (hfollow.of_agrees hbare)
      (fun ids' hids' => hlevels ids' (List.mem_cons_of_mem _ hids'))

/-- Trees that are alike are alike after centring. -/
theorem recenter {levels : List (List NodeId)} (h : Alike order order t t') (hfollow : ChildrenFollow t order)
    (hlevels : ∀ ids ∈ levels, ∀ i ∈ ids, i ∈ order) :
    Alike order order (recenter levels t) (recenter levels t') :=
  h.foldl_recenterNodes hfollow (fun ids hids => hlevels ids (List.mem_reverse.mp hids))

/-- Rounds do the same to both trees, as often. -/
theorem resolveRounds (config : LayoutConfig α) {levels : List (List NodeId)} (h : Alike order order t t')
    (hfollow : ChildrenFollow t order) (hlevels : ∀ ids ∈ levels, ∀ i ∈ ids, i ∈ order) (more : Nat) (stats : Stats) :
    Alike order order (resolveRounds config levels more t stats).1 (resolveRounds config levels more t' stats).1 ∧
      (resolveRounds config levels more t' stats).2 = (resolveRounds config levels more t stats).2 := by
  have hsweep : ∀ {t t' : Tree α}, Alike order order t t' →
      Alike order order (sweep config levels t).1 (sweep config levels t').1 ∧
        (sweep config levels t').2 = (sweep config levels t).2 :=
    fun h => foldl_sweepNext h rfl hlevels
  induction more generalizing t t' stats with
  | zero =>
    obtain ⟨hswept, hcount⟩ := hsweep h
    rw [Layout.resolveRounds, Layout.resolveRounds]
    dsimp only
    rw [hcount]
    split
    · exact ⟨hswept, rfl⟩
    · exact ⟨hswept, rfl⟩
  | succ more ih =>
    obtain ⟨hswept, hcount⟩ := hsweep h
    have hbare : Agrees Node.bare t (Layout.recenter levels (sweep config levels t).1) :=
      ((sweep_agrees config levels t).trans (recenter_agrees levels _)).view Node.bare (fun _ => rfl)
    have hfollow' : ChildrenFollow (sweep config levels t).1 order :=
      hfollow.of_agrees ((sweep_agrees config levels t).view Node.bare (fun _ => rfl))
    rw [Layout.resolveRounds, Layout.resolveRounds]
    dsimp only
    rw [hcount]
    split
    · exact ⟨hswept, rfl⟩
    · exact ih (hswept.recenter hfollow' hlevels) (hfollow.of_agrees hbare) _

/-- The visible nodes are on the same levels. -/
theorem levels (h : Alike order order t t') : levels t' order = levels t order := by
  rw [Layout.levels, h.nodesAt (fun _ hi => hi), Layout.levels]

/-- Overlaps are resolved in the same way. -/
theorem resolveOverlaps (config : LayoutConfig α) (h : Alike order order t t') (hfollow : ChildrenFollow t order)
    (hids : ∀ i ∈ order, ∃ n, t.get? i = some n ∧ n.id = i) :
    Alike order order (resolveOverlaps config order t).1 (resolveOverlaps config order t').1 ∧
      (resolveOverlaps config order t').2 = (resolveOverlaps config order t).2 := by
  have hlevels : ∀ ids ∈ Layout.levels t order, ∀ i ∈ ids, i ∈ order :=
    fun ids hmem i hi => mem_order_of_mem_levels hids hmem hi
  unfold Layout.resolveOverlaps
  rw [h.levels]
  exact h.resolveRounds config hfollow hlevels _ _

end Alike

/-! ## The layout -/

/-- A layout takes over the sizes, the links and the collapse flags, and nothing else: of trees that agree in these it shows the
same nodes, leaves the same in their places, and reports the same. -/
theorem arrange_congr (h : Agrees (Node.sized config) t t') (hs : t.Spanning) :
    t'.visiblePreOrder = t.visiblePreOrder ∧
      (∀ i ∈ t.visiblePreOrder, (Engine.arrange config t').1.get? i = (Engine.arrange config t).1.get? i) ∧
      (Engine.arrange config t').2 = (Engine.arrange config t).2 := by
  have horder : t'.visiblePreOrder = t.visiblePreOrder := visiblePreOrder_congr (h.view Node.visibleChildren (fun _ => rfl))
  have hfollow := childrenFollow_visiblePreOrder hs
  have hids : ∀ i ∈ t.visiblePreOrder, ∃ n, t.get? i = some n ∧ n.id = i := fun i hi => hs.visible_node hi
  have hnodup := hs.nodup_visiblePreOrder
  unfold Engine.arrange
  dsimp only
  rw [horder]
  generalize t.visiblePreOrder = order at hfollow hids hnodup
  have hsizes : Agrees Node.bare t (applyDefaultSizes config order t) :=
    (applyDefaultSizes_agrees config order t).view Node.unplaced (fun _ => rfl)
  have hplaces : Agrees Node.bare t (place config order (applyDefaultSizes config order t)) :=
    hsizes.trans ((place_agrees config order _).view Node.unsized bare_unplaced)
  have halike := place_alike config (sizes_alike h hnodup) (hfollow.of_agrees hsizes)
  obtain ⟨hresolved, hstats⟩ := halike.resolveOverlaps config (hfollow.of_agrees hplaces) (fun i hi => by
    obtain ⟨n, hn, hni⟩ := hids i hi
    obtain ⟨n', hn', he⟩ := hplaces.get? hn
    exact ⟨n', hn', (congrArg Node.id he).trans hni⟩)
  exact ⟨rfl, hresolved.same, hstats⟩

end Layout

end DaxPlan
