import DaxPlan.Proofs.Layout.Tables

/-!
# Which nodes auto-collapse folds

Auto-collapse chooses a node, folds it, computes all footprints anew and chooses again. The choice could as well be made once,
before anything is folded: the visible nodes that show children, sorted by level from the deepest up, on a level by the number of
their children, and then by id: that is the order in which they are folded. For whatever the deepest of them shows is a leaf of
the visible tree. So its footprint is the number of its children, the first in order is the one that is chosen
(`Spanning.collapseCandidate?_eq`), folding it leaves the order of the others as it is (`Spanning.foldOrder_fold`), and the
footprint of the root goes down by one less than that number (`Spanning.rootFootprint_fold`).
-/

namespace DaxPlan.Tree

variable {α : Type} {t : Tree α} {a b i c r : NodeId} {n m : Node α} {rest : List (Node α)}

/-! ## The order -/

/-- The order in which nodes are folded: a deeper one first, then one with more children, then one with a lower id. -/
def foldsEarlier (a b : Node α) : Bool :=
  b.depth < a.depth || (b.depth == a.depth &&
    (b.children.length < a.children.length || (b.children.length == a.children.length && a.id ≤ b.id)))

/-- The visible nodes that show children, in the order in which they are folded. -/
def foldOrder (t : Tree α) : List (Node α) := t.unfolded.mergeSort foldsEarlier

/-- The footprint of the root; none in an empty tree. -/
def rootFootprint (t : Tree α) : Nat := (t.root.map t.footprint).getD 0

theorem foldsEarlier_iff {a b : Node α} : foldsEarlier a b = true ↔ b.depth < a.depth ∨ (b.depth = a.depth ∧
    (b.children.length < a.children.length ∨ (b.children.length = a.children.length ∧ a.id ≤ b.id))) := by
  simp [foldsEarlier]

theorem foldsBefore_iff {footprints : Array Nat} {a b : Node α} : foldsBefore footprints a b = true ↔
    b.depth < a.depth ∨ (b.depth = a.depth ∧ (footprints[b.id]?.getD 0 < footprints[a.id]?.getD 0 ∨
      (footprints[b.id]?.getD 0 = footprints[a.id]?.getD 0 ∧ a.id ≤ b.id))) := by
  simp [foldsBefore]

theorem foldOrder_perm (t : Tree α) : t.foldOrder.Perm t.unfolded := List.mergeSort_perm _ _

theorem foldOrder_sorted (t : Tree α) : t.foldOrder.Pairwise (foldsEarlier · ·) := by
  refine List.pairwise_mergeSort (fun a b c hab hbc => ?_) (fun a b => ?_) _
  · rw [foldsEarlier_iff] at hab hbc ⊢
    grind
  · rw [Bool.or_eq_true, foldsEarlier_iff, foldsEarlier_iff]
    grind

theorem mem_unfolded : n ∈ t.unfolded ↔ ∃ i ∈ t.visiblePreOrder, t.get? i = some n ∧ n.visibleChildren ≠ [] := by
  rw [unfolded, nodesAt, List.mem_filter, List.mem_filterMap, Bool.not_eq_true', List.isEmpty_eq_false_iff]
  constructor
  · rintro ⟨⟨i, hi, hn⟩, hshows⟩
    exact ⟨i, hi, hn, hshows⟩
  · rintro ⟨i, hi, hn, hshows⟩
    exact ⟨⟨i, hi, hn⟩, hshows⟩

/-- A node that could be folded is visible at its id, shows children, and shows all it has. -/
theorem Spanning.unfolded_spec (h : t.Spanning) (hn : n ∈ t.unfolded) :
    n.id ∈ t.visiblePreOrder ∧ t.get? n.id = some n ∧ n.visibleChildren.isEmpty = false ∧ n.visibleChildren = n.children := by
  obtain ⟨i, hi, hget, hshows⟩ := mem_unfolded.mp hn
  have hid : n.id = i := h.ids i n hget
  exact ⟨hid ▸ hi, hid ▸ hget, List.isEmpty_eq_false_iff.mpr hshows, visibleChildren_of_ne_nil hshows⟩

/-! ## The choice -/

/-- The better of two candidates is one of them, and neither is better than it. -/
theorem better_of_two {γ : Type} {before : γ → γ → Bool} (htotal : ∀ x y, before x y || before y x) (first y : γ) :
    (if before y first then y else first) ∈ [first, y] ∧
      before (if before y first then y else first) first ∧ before (if before y first then y else first) y := by
  have hself : ∀ x, before x x := fun x => (Bool.or_self _).symm.trans (htotal x x)
  by_cases hy : before y first
  · rw [if_pos hy]
    exact ⟨List.mem_cons_of_mem first List.mem_cons_self, hy, hself y⟩
  · rw [if_neg hy]
    exact ⟨List.mem_cons_self, hself first, ((Bool.or_eq_true _ _).mp (htotal first y)).resolve_right hy⟩

/-- Going over candidates and keeping the better one ends with a candidate that no other is better than. -/
theorem foldl_best {γ : Type} {before : γ → γ → Bool} (htrans : ∀ x y z, before x y → before y z → before x z)
    (htotal : ∀ x y, before x y || before y x) (first : γ) (rest : List γ) :
    rest.foldl (fun best x => if before x best then x else best) first ∈ first :: rest ∧
      ∀ x ∈ first :: rest, before (rest.foldl (fun best x => if before x best then x else best) first) x := by
  induction rest generalizing first with
  | nil =>
    refine ⟨List.mem_cons_self, fun x hx => ?_⟩
    rw [List.mem_singleton.mp hx]
    exact (Bool.or_self _).symm.trans (htotal first first)
  | cons y rest ih =>
    obtain ⟨hmem, hfirst, hy⟩ := better_of_two htotal first y
    obtain ⟨hbest, hrest⟩ := ih (if before y first then y else first)
    have hstart := hrest _ List.mem_cons_self
    rw [List.foldl_cons]
    refine ⟨?_, List.forall_mem_cons.mpr ⟨htrans _ _ _ hstart hfirst, List.forall_mem_cons.mpr ⟨htrans _ _ _ hstart hy, ?_⟩⟩⟩
    · rcases List.mem_cons.mp hbest with he | hlater
      · rw [he]
        exact List.mem_append_left rest hmem
      · exact List.mem_cons_of_mem first (List.mem_cons_of_mem y hlater)
    · exact fun x hx => hrest x (List.mem_cons_of_mem _ hx)

/-- The node that is folded first comes before whatever else could be folded. -/
theorem first_earlier (hfirst : t.foldOrder = n :: rest) (hm : m ∈ t.unfolded) : foldsEarlier n m := by
  have hsorted := t.foldOrder_sorted
  rw [hfirst] at hsorted
  rcases List.mem_cons.mp (hfirst ▸ t.foldOrder_perm.mem_iff.mpr hm) with rfl | hrest
  · exact foldsEarlier_iff.mpr (Or.inr ⟨rfl, Or.inr ⟨rfl, Nat.le_refl _⟩⟩)
  · exact (List.pairwise_cons.mp hsorted).1 m hrest

/-- Nothing that could be folded is deeper than the node that is folded first. -/
theorem depth_le_first (hfirst : t.foldOrder = n :: rest) (hm : m ∈ t.unfolded) : m.depth ≤ n.depth := by
  have hearlier := foldsEarlier_iff.mp (first_earlier hfirst hm)
  omega

theorem first_unfolded (hfirst : t.foldOrder = n :: rest) : n ∈ t.unfolded :=
  t.foldOrder_perm.mem_iff.mp (hfirst ▸ List.mem_cons_self)

/-- The children of a node on the deepest level that can be folded show no children. -/
theorem Spanning.deepest_shows_leaves (h : t.Spanning) (hl : t.Leveled) (hn : n ∈ t.unfolded)
    (hdeepest : ∀ m ∈ t.unfolded, m.depth ≤ n.depth) (hc : c ∈ n.visibleChildren) :
    ∃ m, t.get? c = some m ∧ m.visibleChildren = [] := by
  obtain ⟨hvisible, hget, -, hall⟩ := h.unfolded_spec hn
  obtain ⟨m, hm⟩ := lt_size_iff.mp (h.visibleChild_lt_size hget hc)
  refine ⟨m, hm, ?_⟩
  by_contra hshows
  have hmem : m ∈ t.unfolded := mem_unfolded.mpr ⟨c, h.visible_child hvisible hget hc, hm, hshows⟩
  have hdepth := hl n.id n c m hget (hall ▸ hc) hm
  have hle := hdeepest m hmem
  omega

/-- The footprint of a node on the deepest level that can be folded is the number of its children. -/
theorem Spanning.deepest_footprint (h : t.Spanning) (hl : t.Leveled) (hn : n ∈ t.unfolded)
    (hdeepest : ∀ m ∈ t.unfolded, m.depth ≤ n.depth) : t.footprint n.id = n.children.length := by
  obtain ⟨-, hget, hshows, hall⟩ := h.unfolded_spec hn
  have hones : ∀ ids : List NodeId, (∀ c ∈ ids, t.footprint c = 1) → Number.total (ids.map t.footprint) = ids.length := by
    intro ids hids
    induction ids with
    | nil => rfl
    | cons c ids ih =>
      obtain ⟨hc, hids⟩ := List.forall_mem_cons.mp hids
      rw [List.map_cons, Number.total_cons, hc, ih hids, List.length_cons, Nat.add_comm]
  rw [h.footprint_eq hget, hshows, if_neg Bool.false_ne_true, hones, hall]
  intro c hc
  obtain ⟨m, hm, hnone⟩ := h.deepest_shows_leaves hl hn hdeepest hc
  rw [h.footprint_eq hm, hnone]
  rfl

/-- The node that auto-collapse chooses is the first in the order of folding. -/
theorem Spanning.collapseCandidate?_eq (h : t.Spanning) (hl : t.Leveled) :
    t.collapseCandidate? = t.foldOrder.head?.map Node.id := by
  cases hnodes : t.unfolded with
  | nil =>
    have hnone : t.foldOrder = [] := by
      rw [foldOrder, hnodes]
      exact List.mergeSort_nil
    rw [collapseCandidate?, hnodes, hnone]
    rfl
  | cons head tail =>
    cases hfirst : t.foldOrder with
    | nil =>
      have hlen := t.foldOrder_perm.length_eq
      rw [hfirst, hnodes] at hlen
      cases hlen
    | cons n rest =>
      have htrans : ∀ x y z : Node α, foldsBefore t.visibleFootprints x y = true → foldsBefore t.visibleFootprints y z = true →
          foldsBefore t.visibleFootprints x z = true := by
        intro x y z hxy hyz
        rw [foldsBefore_iff] at hxy hyz ⊢
        grind
      have htotal : ∀ x y : Node α, (foldsBefore t.visibleFootprints x y || foldsBefore t.visibleFootprints y x) = true := by
        intro x y
        rw [Bool.or_eq_true, foldsBefore_iff, foldsBefore_iff]
        grind
      obtain ⟨hmem, hbest⟩ := foldl_best htrans htotal head tail
      simp only [collapseCandidate?, hnodes, List.head?_cons, Option.map_some, Option.some.injEq]
      generalize tail.foldl (fun best n => if foldsBefore t.visibleFootprints n best then n else best) head = best at hmem hbest
      rw [← hnodes] at hmem hbest
      have hn := first_unfolded hfirst
      have hdeep : ∀ m ∈ t.unfolded, m.depth ≤ n.depth := fun m hm => depth_le_first hfirst hm
      -- the chosen node is as deep as the first in order, so its footprint, too, is the number of its children
      have hbefore := foldsBefore_iff.mp (hbest n hn)
      have hle := hdeep best hmem
      have hdeepBest : ∀ m ∈ t.unfolded, m.depth ≤ best.depth := fun m hm => by
        have := hdeep m hm
        omega
      rw [Layout.visibleFootprints_eq h (h.unfolded_spec hn).1, Layout.visibleFootprints_eq h (h.unfolded_spec hmem).1,
        h.deepest_footprint hl hn hdeep, h.deepest_footprint hl hmem hdeepBest] at hbefore
      have hearlier := foldsEarlier_iff.mp (first_earlier hfirst hmem)
      have hlength : best.children.length = n.children.length := by omega
      have hid : best.id ≤ n.id := by grind
      exact Nat.le_antisymm hid (by grind)

/-! ## One fold -/

theorem get?_setCollapsed (t : Tree α) (id : NodeId) (value : Bool) (i : NodeId) :
    (t.setCollapsed id value).get? i =
      if id = i then (t.get? i).map (fun n => { n with isCollapsed := value }) else t.get? i :=
  get?_modify t id _ i

theorem Spanning.setCollapsed (h : t.Spanning) (id : NodeId) (value : Bool) : (t.setCollapsed id value).Spanning :=
  h.of_agrees ((Layout.setCollapsed_agrees t id value).view Node.links (fun _ => rfl))

theorem Leveled.setCollapsed (h : t.Leveled) (id : NodeId) (value : Bool) : (t.setCollapsed id value).Leveled :=
  h.of_agrees ((Layout.setCollapsed_agrees t id value).view (fun n => (n.children, n.depth)) (fun _ => rfl))

/-- Pending nodes that show no children are visited one after the other. -/
theorem Visits.leaves {ids s v : List NodeId} (hids : ∀ c ∈ ids, ∃ m, t.get? c = some m ∧ m.visibleChildren = [])
    (h : t.Visits Node.visibleChildren (ids ++ s) v) : ∃ b, v = ids ++ b ∧ t.Visits Node.visibleChildren s b := by
  induction ids generalizing v with
  | nil => exact ⟨v, rfl, h⟩
  | cons c ids ih =>
    obtain ⟨⟨m, hm, hnone⟩, hids⟩ := List.forall_mem_cons.mp hids
    obtain ⟨m', w, hm', rfl, hw⟩ := Visits.cons_iff.mp h
    rw [hm, Option.some.injEq] at hm'
    subst hm'
    rw [hnone, List.nil_append] at hw
    obtain ⟨b, rfl, hb⟩ := ih hids hw
    exact ⟨b, rfl, hb⟩

/-- Folding a node that shows nothing but leaves takes these out of the walk. -/
theorem Visits.fold {s v : List NodeId} (h : t.Visits Node.visibleChildren s v) (hn : t.get? i = some n)
    (hleaves : ∀ c ∈ n.visibleChildren, ∃ m, t.get? c = some m ∧ m.visibleChildren = []) (hi : i ∈ v) (hv : v.Nodup) :
    ∃ a b, v = a ++ i :: (n.visibleChildren ++ b) ∧ (t.setCollapsed i true).Visits Node.visibleChildren s (a ++ i :: b) := by
  induction h with
  | done => exact absurd hi List.not_mem_nil
  | @visit id m pending visited hm hrest ih =>
    obtain ⟨hid, hvisited⟩ := List.nodup_cons.mp hv
    by_cases he : id = i
    · subst he
      rw [hn, Option.some.injEq] at hm
      subst hm
      obtain ⟨b, rfl, hb⟩ := Visits.leaves hleaves hrest
      have hget := get?_setCollapsed t id true id
      rw [if_pos rfl, hn, Option.map_some] at hget
      refine ⟨[], b, rfl, Visits.visit hget (hb.congr (fun j hj k hk => ⟨k, ?_, rfl⟩))⟩
      have hne : id ≠ j := fun e => hid (List.mem_append_right _ (e ▸ hj))
      rw [get?_setCollapsed, if_neg hne, hk]
    · obtain ⟨a, b, rfl, hb⟩ := ih ((List.mem_cons.mp hi).resolve_left (Ne.symm he)) hvisited
      refine ⟨id :: a, b, rfl, Visits.visit ?_ hb⟩
      rw [get?_setCollapsed, if_neg (Ne.symm he), hm]

/-- Folding the node that is folded first takes its children out of the visible walk and leaves the rest as it is. -/
theorem Spanning.walk_fold (h : t.Spanning) (hl : t.Leveled) (hfirst : t.foldOrder = n :: rest) :
    ∃ a b, n.id ∉ a ∧ n.id ∉ b ∧ t.visiblePreOrder = a ++ n.id :: (n.visibleChildren ++ b) ∧
      (t.setCollapsed n.id true).visiblePreOrder = a ++ n.id :: b := by
  have hn := first_unfolded hfirst
  obtain ⟨hvisible, hget, -, -⟩ := h.unfolded_spec hn
  obtain ⟨a, b, hab, hfolded⟩ := h.visiblePreOrder_spec.1.fold hget
    (fun c hc => h.deepest_shows_leaves hl hn (fun m hm => depth_le_first hfirst hm) hc) hvisible h.nodup_visiblePreOrder
  have hnodup := h.nodup_visiblePreOrder
  rw [hab] at hnodup
  obtain ⟨-, hib, hia⟩ := List.nodup_append.mp hnodup
  refine ⟨a, b, fun hm => hia n.id hm n.id List.mem_cons_self rfl, fun hm => ?_, hab, ?_⟩
  · exact (List.nodup_cons.mp hib).1 (List.mem_append_right _ hm)
  · exact (h.setCollapsed n.id true).visiblePreOrder_spec.1.unique hfolded

/-- Of some nodes of a tree those that show children. -/
def unfoldedAmong (t : Tree α) (ids : List NodeId) : List (Node α) := (t.nodesAt ids).filter (fun n => !n.visibleChildren.isEmpty)

theorem unfoldedAmong_append (t : Tree α) (ids more : List NodeId) :
    t.unfoldedAmong (ids ++ more) = t.unfoldedAmong ids ++ t.unfoldedAmong more := by
  rw [unfoldedAmong, nodesAt, List.filterMap_append, List.filter_append]
  rfl

theorem unfoldedAmong_setCollapsed {ids : List NodeId} (hi : i ∉ ids) (value : Bool) :
    (t.setCollapsed i value).unfoldedAmong ids = t.unfoldedAmong ids := by
  have hnodes : (t.setCollapsed i value).nodesAt ids = t.nodesAt ids := by
    refine List.filterMap_congr (fun j hj => ?_)
    have hne : i ≠ j := fun e => hi (e ▸ hj)
    rw [get?_setCollapsed, if_neg hne]
  rw [unfoldedAmong, hnodes, unfoldedAmong]

theorem unfoldedAmong_singleton (hn : t.get? i = some n) :
    t.unfoldedAmong [i] = if n.visibleChildren.isEmpty then [] else [n] := by
  rw [unfoldedAmong, nodesAt, List.filterMap_cons_some hn, List.filterMap_nil, List.filter_singleton]
  cases n.visibleChildren.isEmpty <;> rfl

/-- Folding the node that is folded first takes away that one from the nodes that could be folded, and no other. -/
theorem Spanning.unfolded_fold (h : t.Spanning) (hl : t.Leveled) (hfirst : t.foldOrder = n :: rest) :
    ∃ above below, t.unfolded = above ++ n :: below ∧ (t.setCollapsed n.id true).unfolded = above ++ below := by
  have hn := first_unfolded hfirst
  obtain ⟨-, hget, hshows, -⟩ := h.unfolded_spec hn
  obtain ⟨a, b, ha, hb, hab, hfolded⟩ := h.walk_fold hl hfirst
  have hleaves : t.unfoldedAmong n.visibleChildren = [] := by
    rw [unfoldedAmong, List.filter_eq_nil_iff]
    intro m hm
    obtain ⟨c, hc, hcm⟩ := List.mem_filterMap.mp hm
    obtain ⟨m', hm', hnone⟩ := h.deepest_shows_leaves hl hn (fun m hm => depth_le_first hfirst hm) hc
    rw [hcm, Option.some.injEq] at hm'
    subst hm'
    rw [hnone]
    exact Bool.false_ne_true
  have hself : t.unfoldedAmong [n.id] = [n] := by
    rw [unfoldedAmong_singleton hget, hshows]
    rfl
  have hself' : (t.setCollapsed n.id true).unfoldedAmong [n.id] = [] := by
    have hget' := get?_setCollapsed t n.id true n.id
    rw [if_pos rfl, hget, Option.map_some] at hget'
    exact unfoldedAmong_singleton hget'
  refine ⟨t.unfoldedAmong a, t.unfoldedAmong b, ?_, ?_⟩
  · change t.unfoldedAmong t.visiblePreOrder = _
    rw [hab, List.append_cons, unfoldedAmong_append, unfoldedAmong_append, unfoldedAmong_append, hself, hleaves,
      List.nil_append, List.append_assoc, List.singleton_append]
  · change (t.setCollapsed n.id true).unfoldedAmong (t.setCollapsed n.id true).visiblePreOrder = _
    rw [hfolded, List.append_cons, unfoldedAmong_append, unfoldedAmong_append, hself', List.append_nil,
      unfoldedAmong_setCollapsed ha, unfoldedAmong_setCollapsed hb]

/-- The others are folded in the same order after it. -/
theorem Spanning.foldOrder_fold (h : t.Spanning) (hl : t.Leveled) (hfirst : t.foldOrder = n :: rest) :
    (t.setCollapsed n.id true).foldOrder = rest := by
  obtain ⟨above, below, hall, hfolded⟩ := h.unfolded_fold hl hfirst
  have hperm : (t.setCollapsed n.id true).foldOrder.Perm rest := by
    refine (foldOrder_perm _).trans (hfolded ▸ ?_)
    have hwhole := t.foldOrder_perm
    rw [hfirst, hall] at hwhole
    exact (hwhole.trans List.perm_middle).cons_inv.symm
  have hsorted := t.foldOrder_sorted
  rw [hfirst] at hsorted
  refine hperm.eq_of_pairwise (fun a b ha hb hab hba => ?_) (foldOrder_sorted _) (List.pairwise_cons.mp hsorted).2
  have hmem : ∀ m ∈ rest, m ∈ t.unfolded := fun m hm =>
    t.foldOrder_perm.mem_iff.mp (hfirst ▸ List.mem_cons_of_mem n hm)
  have ha := h.unfolded_spec (hmem a (hperm.mem_iff.mp ha))
  have hb := h.unfolded_spec (hmem b hb)
  have hid : a.id = b.id := by
    rw [foldsEarlier_iff] at hab hba
    grind
  exact Option.some.inj (ha.2.1.symm.trans (hid ▸ hb.2.1))

theorem rootFootprint_eq (t : Tree α) : t.rootFootprint = t.visiblePreOrder.countP t.showsNoChildren := by
  unfold rootFootprint visiblePreOrder
  cases t.root <;> rfl

/-- Folding the node that is folded first makes the footprint of the root smaller by one less than it has children. -/
theorem Spanning.rootFootprint_fold (h : t.Spanning) (hl : t.Leveled) (hfirst : t.foldOrder = n :: rest) :
    (t.setCollapsed n.id true).rootFootprint + (n.children.length - 1) = t.rootFootprint := by
  have hn := first_unfolded hfirst
  obtain ⟨-, hget, hshows, hall⟩ := h.unfolded_spec hn
  obtain ⟨a, b, ha, hb, hab, hfolded⟩ := h.walk_fold hl hfirst
  have hsame : ∀ ids : List NodeId, n.id ∉ ids →
      ids.countP (t.setCollapsed n.id true).showsNoChildren = ids.countP t.showsNoChildren := by
    refine fun ids hids => List.countP_congr (fun j hj => ?_)
    have hne : n.id ≠ j := fun e => hids (e ▸ hj)
    rw [showsNoChildren, get?_setCollapsed, if_neg hne, showsNoChildren]
  have hleaves : n.visibleChildren.countP t.showsNoChildren = n.children.length := by
    rw [← hall, List.countP_eq_length]
    intro c hc
    obtain ⟨m, hm, hnone⟩ := h.deepest_shows_leaves hl hn (fun m hm => depth_le_first hfirst hm) hc
    rw [showsNoChildren_eq hm, hnone]
    rfl
  have hself : t.showsNoChildren n.id = false := by rw [showsNoChildren_eq hget, hshows]
  have hself' : (t.setCollapsed n.id true).showsNoChildren n.id = true := by
    rw [showsNoChildren, get?_setCollapsed, if_pos rfl, hget]
    rfl
  have hpos : 0 < n.children.length := by
    rw [← hall]
    exact List.length_pos_iff.mpr (List.isEmpty_eq_false_iff.mp hshows)
  rw [rootFootprint_eq, rootFootprint_eq, hab, hfolded, List.countP_append, List.countP_append, List.countP_cons,
    List.countP_cons, List.countP_append, hself, hself', hleaves, hsame a ha, hsame b hb, if_pos rfl, if_neg Bool.false_ne_true]
  omega

end DaxPlan.Tree
