import DaxPlan.Proofs.Layout.SiblingOrder

/-!
# Parents over their children

Sweeps alternate with putting parents back over their children until a sweep shifts nothing, or the rounds are used up
(`resolveRounds_ending`). Either the first sweep has shifted nothing, and the nodes stand in their first places, or the last thing
that has changed the tree has put the parents back. That goes from the deepest level up, so a node is put over children that
have their places already, and nothing that comes later moves it or them (`centered_recenter`): all parents are over the middle of
their children at once.
-/

namespace DaxPlan.Layout

open DaxPlan.Tree

variable {config : LayoutConfig Rat} {t t' : Tree Rat} {i j : NodeId} {n : Node Rat} {ids before after : List NodeId}

/-! ## Middles -/

theorem extremes_cons (x : Rat) (rest : List Rat) :
    extremes (x :: rest) = some (rest.foldl min x, rest.foldl max x) := by
  have hfold : ∀ (ys : List Rat) (low high : Rat),
      ys.foldl (fun e y => (Quantity.min e.1 y, Quantity.max e.2 y)) (low, high) = (ys.foldl min low, ys.foldl max high) := by
    intro ys
    induction ys with
    | nil => simp
    | cons y ys ih =>
      intro low high
      rw [List.foldl_cons, ih, Quantity.min_rat, Quantity.max_rat]
      rfl
  simp [extremes, hfold]

/-- The extremes of some quantities are the smallest and the largest one among them. -/
theorem extremes_spec {xs : List Rat} {low high : Rat} (h : extremes xs = some (low, high)) :
    low ∈ xs ∧ high ∈ xs ∧ ∀ x ∈ xs, low ≤ x ∧ x ≤ high := by
  cases xs with
  | nil => simp [extremes] at h
  | cons x rest =>
    rw [extremes_cons, Option.some.injEq, Prod.mk.injEq] at h
    obtain ⟨hlow, hlows⟩ := List.min?_eq_some_iff.mp (List.min?_cons'.trans (congrArg some h.1))
    obtain ⟨hhigh, hhighs⟩ := List.max?_eq_some_iff.mp (List.max?_cons'.trans (congrArg some h.2))
    exact ⟨hlow, hhigh, fun y hy => ⟨hlows y hy, hhighs y hy⟩⟩

theorem exists_extremes {xs : List Rat} (h : xs ≠ []) : ∃ low high, extremes xs = some (low, high) := by
  obtain ⟨x, rest, rfl⟩ := List.exists_cons_of_ne_nil h
  exact ⟨_, _, extremes_cons x rest⟩

/-- The middle of a node is halfway between the smallest and the largest middle of the children it shows. -/
def Centered (t : Tree Rat) (i : NodeId) : Prop :=
  ∀ low high, extremes (childCenters t i) = some (low, high) → centerOf t i = (low + high) / 2

/-! ## Putting parents back -/

theorem get?_recenterNode_other (hij : i ≠ j) : (recenterNode t i).get? j = t.get? j := by
  unfold recenterNode
  split
  · rfl
  · rw [get?_modify, if_neg hij]

theorem get?_foldl_recenterNode_other (hj : j ∉ ids) : (ids.foldl recenterNode t).get? j = t.get? j := by
  induction ids generalizing t with
  | nil => rfl
  | cons i ids ih =>
    simp only [List.mem_cons, not_or] at hj
    rw [List.foldl_cons, ih hj.2, get?_recenterNode_other (Ne.symm hj.1)]

/-- What a node shows and where its children are, told by the nodes themselves. -/
theorem childCenters_congr (hshown : visibleChildren t' i = visibleChildren t i)
    (hc : ∀ c ∈ visibleChildren t i, t'.get? c = t.get? c) : childCenters t' i = childCenters t i := by
  rw [childCenters, childCenters, hshown, nodesAt, nodesAt, List.filterMap_congr hc]

/-- A node that is where it was, over children that are where they were, is as centred as it was. -/
theorem Centered.congr (h : Centered t i) (hi : t'.get? i = t.get? i) (hc : ∀ c ∈ visibleChildren t i, t'.get? c = t.get? c) :
    Centered t' i := by
  have hshown : visibleChildren t' i = visibleChildren t i := by simp only [visibleChildren, hi]
  have hcenter : centerOf t' i = centerOf t i := by simp only [centerOf, xOf, widthOf, hi]
  intro low high hx
  rw [hcenter]
  exact h low high (childCenters_congr hshown hc ▸ hx)

theorem visibleChildren_foldl_recenterNode (ids : List NodeId) (i : NodeId) :
    visibleChildren (ids.foldl recenterNode t) i = visibleChildren t i :=
  visibleChildren_congr ((Agrees.foldl _ recenterNode_agrees ids t).view Node.bare (fun _ => rfl)) i

/-- Putting a node over its children centres it. -/
theorem centered_recenterNode (hself : i ∉ visibleChildren t i) : Centered (recenterNode t i) i := by
  intro low high hx
  have hcenters : childCenters (recenterNode t i) i = childCenters t i :=
    childCenters_congr (visibleChildren_foldl_recenterNode [i] i)
      (fun c hc => get?_recenterNode_other (fun he => hself (he ▸ hc)))
  rw [hcenters] at hx
  obtain ⟨n, hn⟩ : ∃ n, t.get? i = some n := by
    cases hn : t.get? i with
    | none => simp [childCenters, visibleChildren, hn, nodesAt, extremes] at hx
    | some n => exact ⟨n, rfl⟩
  have hmoved : (recenterNode t i).get? i =
      some { n with x := Quantity.half (low + high) - Quantity.half n.width } := by
    simp only [recenterNode, hx, get?_modify, if_pos, hn, Option.map_some]
  simp [centerOf_eq hmoved, Node.centerX, Quantity.half_rat]

/-- Of nodes put over their children one after the other each is centred in the end that comes after its children. -/
theorem centered_foldl (hself : i ∉ visibleChildren t i) (hi : i ∉ after) (hc : ∀ c ∈ visibleChildren t i, c ∉ after) :
    Centered ((before ++ i :: after).foldl recenterNode t) i := by
  have hshown : ∀ ids : List NodeId, visibleChildren (ids.foldl recenterNode t) i = visibleChildren t i :=
    fun ids => visibleChildren_foldl_recenterNode ids i
  have hput : Centered ((before ++ [i]).foldl recenterNode t) i := by
    rw [List.foldl_concat]
    apply centered_recenterNode
    rwa [hshown]
  rw [List.append_cons, List.foldl_append]
  apply hput.congr (get?_foldl_recenterNode_other hi)
  intro c hshows
  apply get?_foldl_recenterNode_other
  rw [hshown] at hshows
  exact hc c hshows

/-- From the deepest level up, every node comes after those below it. -/
theorem pairwise_deepest_first (h : t.Spanning) : (levels t t.visiblePreOrder).reverse.flatten.Pairwise
    (fun a b => a ≠ b ∧ depthOf t b ≤ depthOf t a) := by
  rw [levels_eq (fun _ hid => h.visible_node hid), ← List.map_reverse, List.pairwise_flatten, List.pairwise_map]
  have hlevel : ∀ {a d}, a ∈ t.visiblePreOrder.filter (fun id => depthOf t id == d) → depthOf t a = d := by
    intro a d ha
    simpa using (List.mem_filter.mp ha).2
  constructor
  · intro ids hids
    obtain ⟨d, -, rfl⟩ := List.mem_map.mp hids
    refine (h.nodup_visiblePreOrder.filter _).imp_of_mem (fun ha hb hne => ⟨hne, ?_⟩)
    rw [hlevel ha, hlevel hb]
  · rw [List.pairwise_reverse]
    refine (pairwise_lt_idSet _).imp (fun {upper lower} hlt a ha b hb => ?_)
    have hdepth : depthOf t b < depthOf t a := by rwa [hlevel ha, hlevel hb]
    refine ⟨?_, Nat.le_of_lt hdepth⟩
    rintro rfl
    exact Nat.lt_irrefl _ hdepth

/-- Parents put back from the deepest level up are all centred at once. -/
theorem centered_recenter (h : t.Spanning) (hl : t.Leveled) (hi : i ∈ t.visiblePreOrder) :
    Centered (recenter (levels t t.visiblePreOrder) t) i := by
  have horder : recenter (levels t t.visiblePreOrder) t =
      (levels t t.visiblePreOrder).reverse.flatten.foldl recenterNode t := by
    rw [recenter, List.foldl_flatten]
  have hmem : i ∈ (levels t t.visiblePreOrder).reverse.flatten := by
    simp only [List.mem_flatten, List.mem_reverse]
    exact ⟨_, (mem_levels_iff h).mpr ⟨i, hi, rfl⟩, by simp [hi]⟩
  have hbelow : ∀ c ∈ visibleChildren t i, depthOf t c = depthOf t i + 1 := by
    intro c hc
    obtain ⟨n, hn, -⟩ := h.visible_node hi
    rw [visibleChildren_eq hn] at hc
    obtain ⟨m, hm, -⟩ := h.visible_node (h.visible_child hi hn hc)
    rw [depthOf_eq hn, depthOf_eq hm, hl i n c m hn (n.visibleChildren_sublist.subset hc) hm]
  obtain ⟨before, after, hsplit⟩ := List.append_of_mem hmem
  have hlater := pairwise_deepest_first h
  rw [hsplit, List.pairwise_append, List.pairwise_cons] at hlater
  obtain ⟨-, ⟨hlater, -⟩, -⟩ := hlater
  rw [horder, hsplit]
  apply centered_foldl
  · intro hself
    have := hbelow i hself
    omega
  · intro hafter
    exact (hlater i hafter).1 rfl
  · intro c hc hafter
    have := hbelow c hc
    have := (hlater c hafter).2
    omega

/-! ## Rounds -/

/-- Rounds end in one of three ways. The first sweep shifts nothing, and the tree is left as it was; a later one shifts nothing,
and the tree is left as it was when parents had been put back; or no round is left. -/
theorem resolveRounds_ending (config : LayoutConfig Rat) (levels : List (List NodeId)) (more : Nat) (t : Tree Rat)
    (stats : Stats) (hnew : stats.converged = false) :
    let out := resolveRounds config levels more t stats
    (out.2.converged = true ∧ out.2.rounds = stats.rounds + 1 ∧ out.1 = t) ∨
      (out.2.converged = true ∧ stats.rounds + 2 ≤ out.2.rounds ∧ out.2.rounds ≤ stats.rounds + 1 + more ∧
        ∃ u, Agrees Node.offX t u ∧ out.1 = recenter levels u) ∨
      (out.2.converged = false ∧ out.2.rounds = stats.rounds + 1 + more) := by
  induction more generalizing t stats with
  | zero =>
    by_cases hstill : (sweep config levels t).2 = 0
    · rw [resolveRounds_of_still (sweep_of_no_shift hstill)]
      exact Or.inl ⟨rfl, rfl, rfl⟩
    · rw [resolveRounds]
      dsimp only
      rw [if_neg (by simpa using hstill)]
      exact Or.inr (Or.inr ⟨hnew, rfl⟩)
  | succ more ih =>
    by_cases hstill : (sweep config levels t).2 = 0
    · rw [resolveRounds_of_still (sweep_of_no_shift hstill)]
      exact Or.inl ⟨rfl, rfl, rfl⟩
    · rw [resolveRounds_again hstill]
      have hagrees := (sweep_agrees config levels t).trans (recenter_agrees levels (sweep config levels t).1)
      have hrest := ih (recenter levels (sweep config levels t).1)
        { stats with rounds := stats.rounds + 1, shifts := stats.shifts + (sweep config levels t).2 } hnew
      dsimp only at hrest
      rcases hrest with ⟨hdone, hrounds, hsame⟩ | ⟨hdone, hmin, hmax, u, hu, hsame⟩ | ⟨hcapped, hrounds⟩
      · exact Or.inr (Or.inl ⟨hdone, by omega, by omega, _, sweep_agrees config levels t, hsame⟩)
      · exact Or.inr (Or.inl ⟨hdone, by omega, by omega, u, hagrees.trans hu, hsame⟩)
      · exact Or.inr (Or.inr ⟨hcapped, by omega⟩)

theorem resolveOverlaps_ending (config : LayoutConfig Rat) (order : List NodeId) (t : Tree Rat) :
    let cap := max 1 config.maxOverlapIterations
    let out := resolveOverlaps config order t
    (out.2.converged = true ∧ out.2.rounds = 1 ∧ out.1 = t) ∨
      (out.2.converged = true ∧ 2 ≤ out.2.rounds ∧ out.2.rounds ≤ cap ∧
        ∃ u, Agrees Node.offX t u ∧ out.1 = recenter (levels t order) u) ∨
      (out.2.converged = false ∧ out.2.rounds = cap) := by
  intro cap out
  have hcap : 0 + 1 + (max config.maxOverlapIterations 1 - 1) = cap := by omega
  have hending := resolveRounds_ending config (levels t order) (max config.maxOverlapIterations 1 - 1) t
    { visibleNodes := order.length } rfl
  dsimp only at hending
  rwa [hcap] at hending

/-- A sweep whose orders are insertion sorts, which can be evaluated. -/
theorem sweep_eq_insertionSort (levels : List (List NodeId)) (t : Tree Rat) : sweep config levels t =
    levels.foldl (fun result ids => sweepLevel config (ids.insertionSort (LeftOf result.1)) result) (t, 0) := by
  rw [sweep]
  congr 1
  funext result ids
  rw [sweepNext, fromLeft_eq_insertionSort]

/-! ## The layout -/

/-- The widths of the visible subtrees are told by the sizes. -/
theorem subtreeWidths_congr (h : Agrees Node.unplaced t t') (gap : Rat) :
    subtreeWidths t' t'.visiblePreOrder gap = subtreeWidths t t.visiblePreOrder gap := by
  have halike : Alike t.visiblePreOrder [] t t' :=
    ⟨h.view Node.unsized bare_unplaced, fun i _ => h.2 i, fun i hi => absurd hi List.not_mem_nil⟩
  rw [visiblePreOrder_congr (h.view Node.visibleChildren (fun _ => rfl))]
  exact halike.subtreeWidths gap

/-- In first places a node that is no wider than the span of its children is over the middle of them, from the left edge of the
first to the right edge of the last. -/
theorem placed_over_children (h : t.Spanning) (hi : i ∈ t.visiblePreOrder) (hn : (placed config t).get? i = some n)
    (hshows : n.visibleChildren ≠ [])
    (hfits : n.width ≤ childrenSpan n.visibleChildren
      (subtreeWidths (placed config t) (placed config t).visiblePreOrder config.horizontalSpacing) config.horizontalSpacing) :
    ∃ first last, n.visibleChildren.head?.bind (placed config t).get? = some first ∧
      n.visibleChildren.getLast?.bind (placed config t).get? = some last ∧
      n.centerX = (first.x + (last.x + last.width)) / 2 := by
  have hnode : ∀ c ∈ n.visibleChildren, ∃ m, (placed config t).get? c = some m :=
    fun c hc => lt_size_iff.mp ((spanning_placed h config).visibleChild_lt_size hn hc)
  obtain ⟨m, hm, he⟩ := (placed_agrees config t).symm.get? hn
  have hchildren : m.visibleChildren = n.visibleChildren := eq_of_unplaced_eq he Node.visibleChildren (fun _ => rfl)
  have hwidth : m.width = n.width := eq_of_unplaced_eq he Node.width (fun _ => rfl)
  obtain ⟨first, last, hfirst, hlast⟩ := exists_head_last hshows
  obtain ⟨f, hf⟩ := hnode first (List.mem_of_mem_head? hfirst)
  obtain ⟨l, hl⟩ := hnode last (List.mem_of_getLast? hlast)
  rw [subtreeWidths_congr (placed_agrees config t), ← hchildren, ← hwidth] at hfits
  have hcenter := centerOf_placed h config hi hm hfits (hchildren ▸ hfirst) (hchildren ▸ hlast)
  rw [centerOf_eq hn, xOf_eq hf, xOf_eq hl, widthOf_eq hl] at hcenter
  exact ⟨f, l, by rw [hfirst, Option.bind_some, hf], by rw [hlast, Option.bind_some, hl], hcenter⟩

/-- A centred node is halfway between two children it shows, one with the smallest and one with the largest middle. -/
theorem Centered.between (h : Centered t i) (hn : t.get? i = some n) (hnode : ∃ c ∈ n.visibleChildren, ∃ m, t.get? c = some m) :
    ∃ a ∈ t.nodesAt n.visibleChildren, ∃ b ∈ t.nodesAt n.visibleChildren,
      (∀ c ∈ t.nodesAt n.visibleChildren, a.centerX ≤ c.centerX ∧ c.centerX ≤ b.centerX) ∧
        n.centerX = (a.centerX + b.centerX) / 2 := by
  obtain ⟨c, hc, m, hm⟩ := hnode
  have hcenters : childCenters t i = (t.nodesAt n.visibleChildren).map Node.centerX := by
    rw [childCenters, visibleChildren_eq hn]
  have hne : childCenters t i ≠ [] := by
    rw [hcenters]
    exact List.ne_nil_of_mem (List.mem_map_of_mem (List.mem_filterMap.mpr ⟨c, hc, hm⟩))
  obtain ⟨low, high, hx⟩ := exists_extremes hne
  have hcenter := h low high hx
  obtain ⟨hlow, hhigh, hbounds⟩ := extremes_spec hx
  rw [hcenters, List.mem_map] at hlow hhigh
  obtain ⟨a, ha, rfl⟩ := hlow
  obtain ⟨b, hb, rfl⟩ := hhigh
  refine ⟨a, ha, b, hb, fun c hc => hbounds _ ?_, (centerOf_eq hn).symm.trans hcenter⟩
  rw [hcenters]
  exact List.mem_map_of_mem hc

/-- Once parents are put back over their children, every visible node that shows children is halfway between two of them. -/
theorem recentered_between (h : t.Spanning) (hl : t.Leveled) (hi : i ∈ t.visiblePreOrder)
    (hn : (recenter (levels t t.visiblePreOrder) t).get? i = some n) (hshows : n.visibleChildren ≠ []) :
    let u := recenter (levels t t.visiblePreOrder) t
    ∃ a ∈ u.nodesAt n.visibleChildren, ∃ b ∈ u.nodesAt n.visibleChildren,
      (∀ c ∈ u.nodesAt n.visibleChildren, a.centerX ≤ c.centerX ∧ c.centerX ≤ b.centerX) ∧
        n.centerX = (a.centerX + b.centerX) / 2 := by
  intro u
  have hagrees : Agrees Node.offX t u := recenter_agrees _ t
  obtain ⟨c, hc⟩ := List.exists_mem_of_ne_nil n.visibleChildren hshows
  have hsize := (h.of_agrees (hagrees.view Node.links (fun _ => rfl))).visibleChild_lt_size hn hc
  exact (centered_recenter h hl hi).between hn ⟨c, hc, lt_size_iff.mp hsize⟩

/-- A layout makes one round at least and no more than it may, and all it may if it does not converge. If it does, every visible
node that shows children is centred: after a single round, unless it is wider than the span of its children, it is over the middle
of them, from the left edge of the first to the right edge of the last; after more rounds, however wide it is, its middle is
halfway between the smallest and the largest middle of its children. -/
theorem layout_centers_parents (e : Engine Rat) (p : Plan Rat) (h : p.tree.Spanning) (hl : p.tree.Leveled) :
    let gap := e.config.horizontalSpacing
    let cap := max 1 e.config.maxOverlapIterations
    let stats := (e.layout p).1.stats
    let t := (e.layout p).2.1.tree
    (1 ≤ stats.rounds ∧ stats.rounds ≤ cap) ∧ (stats.converged = false → stats.rounds = cap) ∧
      (stats.converged = true → ∀ n ∈ t.nodesAt t.visiblePreOrder, n.visibleChildren ≠ [] →
        (stats.rounds = 1 → n.width ≤ childrenSpan n.visibleChildren (subtreeWidths t t.visiblePreOrder gap) gap →
          ∃ first last, n.visibleChildren.head?.bind t.get? = some first ∧ n.visibleChildren.getLast?.bind t.get? = some last ∧
            n.centerX = (first.x + (last.x + last.width)) / 2) ∧
        (2 ≤ stats.rounds → ∃ a ∈ t.nodesAt n.visibleChildren, ∃ b ∈ t.nodesAt n.visibleChildren,
          (∀ c ∈ t.nodesAt n.visibleChildren, a.centerX ≤ c.centerX ∧ c.centerX ≤ b.centerX) ∧
            n.centerX = (a.centerX + b.centerX) / 2)) := by
  intro gap cap stats t
  have hs := spanning_sized h e.config
  have harrange := arrange_eq e.config p.tree
  have ht : t = (resolveOverlaps e.config (placed e.config (sized e.config p.tree)).visiblePreOrder
      (placed e.config (sized e.config p.tree))).1 := by
    rw [show t = _ from tree_layout e p, harrange]
  have hstats : stats = _ := congrArg Prod.snd harrange
  have hspan := spanning_placed hs e.config
  have hlevel := leveled_placed (leveled_sized hl e.config) e.config
  have hending := resolveOverlaps_ending e.config (placed e.config (sized e.config p.tree)).visiblePreOrder
    (placed e.config (sized e.config p.tree))
  dsimp only at hending
  rw [← ht, ← hstats] at hending
  -- The rounds end at the first sweep without a shift, at a later one behind a recentring, or at the cap.
  rcases hending with ⟨hdone, hrounds, hsame⟩ | ⟨hdone, hmin, hmax, u, hu, hsame⟩ | ⟨hcapped, hrounds⟩
  · refine ⟨⟨by omega, by omega⟩, by simp [hdone], fun _ n hn hshows => ⟨fun _ hfits => ?_, by omega⟩⟩
    obtain ⟨i, hi, hn⟩ := List.mem_filterMap.mp hn
    rw [hsame] at hi hn hfits ⊢
    rw [visiblePreOrder_placed] at hi
    exact placed_over_children hs hi hn hshows hfits
  · refine ⟨⟨by omega, by omega⟩, by simp [hdone], fun _ n hn hshows => ⟨by omega, fun _ => ?_⟩⟩
    have hspan' : u.Spanning := hspan.of_agrees (hu.view Node.links (fun _ => rfl))
    have hlevel' : u.Leveled := hlevel.of_agrees (hu.view (fun n => (n.children, n.depth)) (fun _ => rfl))
    have horder : u.visiblePreOrder = (placed e.config (sized e.config p.tree)).visiblePreOrder :=
      visiblePreOrder_congr (hu.view Node.visibleChildren (fun _ => rfl))
    rw [← levels_eq_of_agrees hu, ← horder] at hsame
    obtain ⟨i, hi, hn⟩ := List.mem_filterMap.mp hn
    rw [hsame] at hi hn ⊢
    rw [visiblePreOrder_congr ((recenter_agrees _ u).view Node.visibleChildren (fun _ => rfl))] at hi
    exact recentered_between hspan' hlevel' hi hn hshows
  · refine ⟨⟨by omega, by omega⟩, fun _ => hrounds, ?_⟩
    simp [hcapped]

/-- A root shows a leaf of width 20, and a node of width 850 over a leaf of width 500 and a node of width 100 with a child of
width 400. The first sweep shifts the first child of the root, the root is put back over both, and the second sweep has nothing
left to shift. -/
theorem layout_centers_parents_shifted :
    let row (level : Nat) : Row := ⟨1, level, "", "", .unknown, none, none⟩
    let width (id : NodeId) : Rat := [180, 20, 850, 500, 100, 400].getD id 0
    let p : Plan Rat := Plan.parsed .physical ""
      ((Tree.ofRows ([0, 1, 1, 2, 2, 3].map row)).map (fun n => { n with width := width n.id }))
    let stats := ((Engine.new LayoutConfig.standard).layout p).1.stats
    let t := ((Engine.new LayoutConfig.standard).layout p).2.1.tree
    p.tree.WellFormed ∧ stats.converged = true ∧ stats.rounds = 2 ∧
      ∀ n ∈ t.nodesAt t.visiblePreOrder, n.visibleChildren ≠ [] →
        ∃ a ∈ t.nodesAt n.visibleChildren, ∃ b ∈ t.nodesAt n.visibleChildren,
          (∀ c ∈ t.nodesAt n.visibleChildren, a.centerX ≤ c.centerX ∧ c.centerX ≤ b.centerX) ∧
            n.centerX = (a.centerX + b.centerX) / 2 := by
  intro row width p stats t
  have hp : p.tree = (Tree.ofRows ([0, 1, 1, 2, 2, 3].map row)).map (fun n => { n with width := width n.id }) :=
    Plan.tree_parsed _ _ _
  have h : p.tree.WellFormed := by
    rw [hp]
    exact (Outline.ofRows_wellFormed _).of_agrees (Agrees.map _ _ (fun _ => rfl))
  have horder : (placed LayoutConfig.standard (sized LayoutConfig.standard p.tree)).visiblePreOrder = [0, 1, 2, 3, 4, 5] := by
    rw [hp]
    decide +kernel
  have hlevels : levels (placed LayoutConfig.standard (sized LayoutConfig.standard p.tree)) [0, 1, 2, 3, 4, 5] =
      [[0], [1, 2], [3, 4], [5]] := by
    rw [levels, List.mergeSort_eq_insertionSort, hp]
    decide +kernel
  have hfirst : (sweep LayoutConfig.standard [[0], [1, 2], [3, 4], [5]]
      (placed LayoutConfig.standard (sized LayoutConfig.standard p.tree))).2 = 1 := by
    rw [sweep_eq_insertionSort, hp]
    decide +kernel
  have hsecond : (sweep LayoutConfig.standard [[0], [1, 2], [3, 4], [5]] (recenter [[0], [1, 2], [3, 4], [5]]
      (sweep LayoutConfig.standard [[0], [1, 2], [3, 4], [5]]
        (placed LayoutConfig.standard (sized LayoutConfig.standard p.tree))).1)).2 = 0 := by
    rw [sweep_eq_insertionSort, sweep_eq_insertionSort, hp]
    decide +kernel
  have hcap : max (LayoutConfig.standard : LayoutConfig Rat).maxOverlapIterations 1 - 1 = 8 + 1 := rfl
  have hstats : stats = { visibleNodes := 6, rounds := 2, shifts := 1, converged := true } := by
    rw [show stats = _ from congrArg Prod.snd (arrange_eq LayoutConfig.standard p.tree), resolveOverlaps, horder, hlevels, hcap,
      resolveRounds_again (by rw [hfirst]; decide), resolveRounds_of_still (sweep_of_no_shift hsecond), hfirst]
    rfl
  obtain ⟨-, -, hcentered⟩ := layout_centers_parents (Engine.new LayoutConfig.standard) p h.toSpanning h.leveled
  refine ⟨h, by rw [hstats], by rw [hstats], fun n hn hshows => ?_⟩
  exact (hcentered (congrArg Stats.converged hstats) n hn hshows).2 (congrArg Stats.rounds hstats).ge

end DaxPlan.Layout
