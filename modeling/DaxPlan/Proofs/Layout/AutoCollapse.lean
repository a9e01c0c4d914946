import DaxPlan.Proofs.Layout.Folding

/-!
# What auto-collapse comes to

Auto-collapse folds the shortest part of the order of folding after which the footprint of the root fits, or as much of it as the
limit on its folds allows (`autoCollapse_folds_prefix`). A call that has folded less than the limit allows leaves nothing to do,
and calling it again changes nothing; one that the limit has stopped is gone on with by the next (`autoCollapse_again`,
`autoCollapse_continues`).
-/

namespace DaxPlan

namespace Tree

variable {α : Type} {t : Tree α} {i : NodeId} {n : Node α} {rest : List (Node α)} {target need k : Nat}

/-! ## Folds in order -/

/-- The tree with some more nodes collapsed. -/
def collapse (t : Tree α) (ids : List NodeId) : Tree α :=
  t.map (fun n => if n.id ∈ ids then { n with isCollapsed := true } else n)

/-- The tree with the first nodes in order folded, so many of them. -/
def foldFirst (t : Tree α) (k : Nat) : Tree α := t.collapse ((t.foldOrder.take k).map Node.id)

/-- By how much folding some nodes makes the footprint of the root smaller, each counting one less than its children. -/
def savings (nodes : List (Node α)) : Nat := Number.total (nodes.map (fun n => n.children.length - 1))

/-- So many folds, in order, are needed to make the footprint of the root fit; all there are if it never does. -/
structure FoldsNeeded (t : Tree α) (target need : Nat) : Prop where
  le_length : need ≤ t.foldOrder.length
  too_wide : ∀ k < need, target < (t.foldFirst k).rootFootprint
  fits : need < t.foldOrder.length → (t.foldFirst need).rootFootprint ≤ target

theorem collapse_nil (t : Tree α) : t.collapse [] = t := by
  refine ext_get? rfl (fun i => ?_)
  rw [collapse, get?_map]
  exact Option.map_id'

theorem Spanning.collapse_cons (h : t.Spanning) (i : NodeId) (ids : List NodeId) :
    (t.setCollapsed i true).collapse ids = t.collapse (i :: ids) := by
  refine ext_get? rfl (fun j => ?_)
  rw [collapse, collapse, get?_map, get?_map, get?_setCollapsed]
  cases hn : t.get? j with
  | none => simp
  | some n =>
    have hid : n.id = j := h.ids j n hn
    by_cases hij : i = j
    · subst hij
      by_cases hmem : n.id ∈ ids <;> simp [hid]
    · have hji : ¬j = i := fun e => hij e.symm
      simp [hid, hij, hji]

@[simp] theorem foldFirst_zero (t : Tree α) : t.foldFirst 0 = t := collapse_nil t

theorem Spanning.foldFirst_succ (h : t.Spanning) (hl : t.Leveled) (hfirst : t.foldOrder = n :: rest) (k : Nat) :
    t.foldFirst (k + 1) = (t.setCollapsed n.id true).foldFirst k := by
  rw [foldFirst, foldFirst, h.foldOrder_fold hl hfirst, hfirst, h.collapse_cons]
  rfl

/-- After some folds the tree is still one, with the levels it had, and the others are left to fold, in their order. -/
theorem Spanning.foldFirst_spec (h : t.Spanning) (hl : t.Leveled) (hk : k ≤ t.foldOrder.length) :
    (t.foldFirst k).Spanning ∧ (t.foldFirst k).Leveled ∧ (t.foldFirst k).foldOrder = t.foldOrder.drop k ∧
      (t.foldFirst k).rootFootprint + savings (t.foldOrder.take k) = t.rootFootprint := by
  induction k generalizing t with
  | zero =>
    rw [foldFirst_zero]
    exact ⟨h, hl, rfl, rfl⟩
  | succ k ih =>
    cases hfirst : t.foldOrder with
    | nil =>
      rw [hfirst] at hk
      cases hk
    | cons n rest =>
      have hrest := h.foldOrder_fold hl hfirst
      rw [hfirst] at hk
      obtain ⟨hspan, hlevel, horder, hfootprint⟩ := ih (h.setCollapsed n.id true) (hl.setCollapsed n.id true)
        (hrest ▸ Nat.le_of_succ_le_succ hk)
      have hfold := h.rootFootprint_fold hl hfirst
      rw [h.foldFirst_succ hl hfirst, List.drop_succ_cons, List.take_succ_cons, savings, List.map_cons, Number.total_cons]
      rw [hrest] at horder hfootprint
      refine ⟨hspan, hlevel, horder, ?_⟩
      rw [savings] at hfootprint
      omega

/-- A node that is folded is visible then, and all it shows below it are nodes that show no children. -/
theorem Spanning.foldFirst_leaves (h : t.Spanning) (hl : t.Leveled) (hn : t.foldOrder[k]? = some n) :
    n.id ∈ (t.foldFirst k).visiblePreOrder ∧
      ∀ i ∈ (t.foldFirst k).visibleSubtree n.id, i ≠ n.id → (t.foldFirst k).showsNoChildren i = true := by
  obtain ⟨hk, hget⟩ := List.getElem?_eq_some_iff.mp hn
  obtain ⟨hspan, hlevel, horder, -⟩ := h.foldFirst_spec hl (Nat.le_of_lt hk)
  rw [List.drop_eq_getElem_cons hk, hget] at horder
  have hmem := first_unfolded horder
  obtain ⟨hvisible, hnode, -, -⟩ := hspan.unfolded_spec hmem
  refine ⟨hvisible, fun i hi hne => ?_⟩
  rw [hspan.visibleSubtree_eq hnode] at hi
  obtain ⟨c, hc, hic⟩ := List.mem_flatMap.mp ((List.mem_cons.mp hi).resolve_left hne)
  obtain ⟨m, hm, hnone⟩ := hspan.deepest_shows_leaves hlevel hmem (fun m hm => depth_le_first horder hm) hc
  rw [hspan.visibleSubtree_eq hm, hnone, List.flatMap_nil, List.mem_singleton] at hic
  rw [hic, showsNoChildren_eq hm, hnone]
  rfl

/-! ## The loop -/

theorem exists_foldsNeeded (t : Tree α) (target : Nat) : ∃ need, t.FoldsNeeded target need := by
  classical
  have hex : ∃ k, k = t.foldOrder.length ∨ (t.foldFirst k).rootFootprint ≤ target := ⟨_, Or.inl rfl⟩
  refine ⟨Nat.find hex, Nat.find_min' hex (Or.inl rfl), fun k hk => ?_, fun hlt => ?_⟩
  · exact Nat.lt_of_not_le (fun hle => Nat.find_min hex hk (Or.inr hle))
  · exact (Nat.find_spec hex).resolve_left (Nat.ne_of_lt hlt)

/-- Nothing is left to do: the footprint of the root fits, or no visible node shows children. -/
def Settled (t : Tree α) (target : Nat) : Prop := t.rootFootprint ≤ target ∨ t.unfolded = []

theorem collapseCandidate?_eq_none : t.collapseCandidate? = none ↔ t.unfolded = [] := by
  rw [collapseCandidate?]
  cases t.unfolded with
  | nil => exact ⟨fun _ => rfl, fun _ => rfl⟩
  | cons first rest => exact ⟨fun h => absurd h (Option.some_ne_none _), fun h => absurd h (List.cons_ne_nil _ _)⟩

/-- One turn of the loop: it ends where nothing is left to do, and otherwise folds the node chosen. -/
theorem autoCollapse_succ (t : Tree α) (target limit : Nat) :
    (t.Settled target ∧ t.autoCollapse target (limit + 1) = (t, [])) ∨
      ∃ id, ¬t.Settled target ∧ t.collapseCandidate? = some id ∧ t.autoCollapse target (limit + 1) =
        (((t.setCollapsed id true).autoCollapse target limit).1,
          id :: ((t.setCollapsed id true).autoCollapse target limit).2) := by
  rw [autoCollapse]
  cases hr : t.root with
  | none =>
    have hzero : t.rootFootprint = 0 := by rw [rootFootprint, hr]; rfl
    exact Or.inl ⟨Or.inl (hzero ▸ Nat.zero_le target), rfl⟩
  | some r =>
    have hroot : t.rootFootprint = t.footprint r := by rw [rootFootprint, hr]; rfl
    dsimp only
    rw [← hroot]
    by_cases hle : t.rootFootprint ≤ target
    · rw [if_pos hle]
      exact Or.inl ⟨Or.inl hle, rfl⟩
    · rw [if_neg hle]
      cases hc : t.collapseCandidate? with
      | none => exact Or.inl ⟨Or.inr (collapseCandidate?_eq_none.mp hc), rfl⟩
      | some id =>
        refine Or.inr ⟨id, ?_, rfl, rfl⟩
        rintro (hfits | hnone)
        · exact hle hfits
        · rw [collapseCandidate?_eq_none.mpr hnone] at hc
          cases hc

/-- Where nothing is left to do auto-collapse does nothing. -/
theorem Settled.autoCollapse_eq (h : t.Settled target) (limit : Nat) : t.autoCollapse target limit = (t, []) := by
  cases limit with
  | zero => rfl
  | succ limit =>
    rcases autoCollapse_succ t target limit with ⟨-, heq⟩ | ⟨id, hnot, -, -⟩
    · exact heq
    · exact absurd h hnot

/-- A tree that needs no fold is one with nothing left to do. -/
theorem foldsNeeded_zero (hneed : t.FoldsNeeded target 0) : t.Settled target := by
  cases hfirst : t.foldOrder with
  | nil =>
    have hperm := t.foldOrder_perm
    rw [hfirst] at hperm
    exact Or.inr hperm.nil_eq.symm
  | cons n rest =>
    have hfits := hneed.fits (by rw [hfirst]; exact Nat.succ_pos _)
    rw [foldFirst_zero] at hfits
    exact Or.inl hfits

/-- A tree that needs folds needs one less after the first. -/
theorem foldsNeeded_succ (h : t.Spanning) (hl : t.Leveled) (hneed : t.FoldsNeeded target (need + 1)) :
    ∃ n rest, t.foldOrder = n :: rest ∧ ¬t.Settled target ∧ (t.setCollapsed n.id true).FoldsNeeded target need := by
  cases hfirst : t.foldOrder with
  | nil =>
    have hle := hneed.le_length
    rw [hfirst] at hle
    cases hle
  | cons n rest =>
    have hrest := h.foldOrder_fold hl hfirst
    have hwide := hneed.too_wide 0 (Nat.succ_pos need)
    rw [foldFirst_zero] at hwide
    refine ⟨n, rest, rfl, ?_, ?_, fun k hk => ?_, fun hlt => ?_⟩
    · rintro (hfits | hnone)
      · exact Nat.not_le_of_lt hwide hfits
      · have hmem := first_unfolded hfirst
        rw [hnone] at hmem
        exact absurd hmem List.not_mem_nil
    · have hle := hneed.le_length
      rw [hfirst] at hle
      exact hrest ▸ Nat.le_of_succ_le_succ hle
    · rw [← h.foldFirst_succ hl hfirst]
      exact hneed.too_wide (k + 1) (Nat.succ_lt_succ hk)
    · rw [← h.foldFirst_succ hl hfirst]
      refine hneed.fits ?_
      rw [hfirst]
      exact Nat.succ_lt_succ (hrest ▸ hlt)

/-- The loop folds what is needed, in order, or as much of it as it may. -/
theorem FoldsNeeded.autoCollapse_eq (hneed : t.FoldsNeeded target need) (h : t.Spanning) (hl : t.Leveled) (limit : Nat) :
    t.autoCollapse target limit = (t.foldFirst (min limit need), (t.foldOrder.take (min limit need)).map Node.id) := by
  induction limit generalizing t need with
  | zero =>
    rw [Nat.zero_min, foldFirst_zero]
    rfl
  | succ limit ih =>
    cases need with
    | zero =>
      rw [Nat.min_zero, foldFirst_zero]
      exact (foldsNeeded_zero hneed).autoCollapse_eq (limit + 1)
    | succ need =>
      obtain ⟨n, rest, hfirst, hwide, hneed'⟩ := foldsNeeded_succ h hl hneed
      rcases autoCollapse_succ t target limit with ⟨hsettled, -⟩ | ⟨id, -, hchosen, heq⟩
      · exact absurd hsettled hwide
      · rw [h.collapseCandidate?_eq hl, hfirst] at hchosen
        obtain rfl : n.id = id := Option.some.inj hchosen
        rw [heq, ih hneed' (h.setCollapsed n.id true) (hl.setCollapsed n.id true), h.foldOrder_fold hl hfirst,
          ← h.foldFirst_succ hl hfirst, hfirst, Nat.succ_min_succ]
        rfl

/-- Auto-collapse folds visible nodes in order: the deepest first, on a level those with more children first, and of these the
lower ids. It folds so many that the footprint of the root fits, or as many as it may, or all; no choice depends on what was
folded before. Each fold takes one less than the number of the node's children from the footprint of the root, and comes when
the node shows nothing below it that shows children. -/
theorem autoCollapse_folds_prefix (h : t.Spanning) (hl : t.Leveled) (target : Nat) :
    ∃ need, t.FoldsNeeded target need ∧
      (∀ limit, t.autoCollapse target limit =
        (t.foldFirst (min limit need), (t.foldOrder.take (min limit need)).map Node.id)) ∧
      (∀ k ≤ t.foldOrder.length, (t.foldFirst k).rootFootprint + savings (t.foldOrder.take k) = t.rootFootprint) ∧
      ∀ k n, t.foldOrder[k]? = some n → n.id ∈ (t.foldFirst k).visiblePreOrder ∧
        ∀ i ∈ (t.foldFirst k).visibleSubtree n.id, i ≠ n.id → (t.foldFirst k).showsNoChildren i = true := by
  obtain ⟨need, hneed⟩ := exists_foldsNeeded t target
  refine ⟨need, hneed, hneed.autoCollapse_eq h hl, fun k hk => ?_, fun k n hn => h.foldFirst_leaves hl hn⟩
  exact (h.foldFirst_spec hl hk).2.2.2

/-- Of two operators with two children each, under a root, one has to be folded to make the plan fit into three places. -/
theorem autoCollapse_folds_prefix_three :
    let row (level : Nat) : Row := ⟨1, level, "", "", .unknown, none, none⟩
    let t : Tree Rat := Tree.ofRows ([0, 1, 2, 2, 1, 2, 2].map row)
    t.Spanning ∧ t.Leveled ∧ t.FoldsNeeded 3 1 ∧
      ∀ limit, t.autoCollapse 3 limit = (t.foldFirst (min limit 1), (t.foldOrder.take (min limit 1)).map Node.id) := by
  intro row t
  have h : t.WellFormed := Outline.ofRows_wellFormed _
  obtain ⟨need, hneed, hfolds, -⟩ := autoCollapse_folds_prefix h.toSpanning h.leveled 3
  have hlength : t.foldOrder.length = 3 := t.foldOrder_perm.length_eq.trans (by decide)
  have hone : need = 1 := by
    have hfolded := congrArg (fun result => result.2.length) (hfolds 3)
    have hcount : (t.autoCollapse 3 3).2.length = 1 := by decide
    have hle := hneed.le_length
    simp only [hcount, List.length_map, List.length_take] at hfolded
    omega
  subst hone
  exact ⟨h.toSpanning, h.leveled, hneed, hfolds⟩

/-! ## The loop again -/

/-- A loop that folds less than it may leaves nothing to do. -/
theorem autoCollapse_settled {limit : Nat} (h : (t.autoCollapse target limit).2.length < limit) :
    (t.autoCollapse target limit).1.Settled target := by
  induction limit generalizing t with
  | zero => cases h
  | succ limit ih =>
    rcases autoCollapse_succ t target limit with ⟨hsettled, heq⟩ | ⟨id, -, -, heq⟩
    · rw [heq]
      exact hsettled
    · rw [heq, List.length_cons] at h
      rw [heq]
      exact ih (Nat.lt_of_succ_lt_succ h)

/-- A loop that has been stopped is gone on with by the next. -/
theorem autoCollapse_add (t : Tree α) (target limit more : Nat) :
    t.autoCollapse target (limit + more) = (((t.autoCollapse target limit).1.autoCollapse target more).1,
      (t.autoCollapse target limit).2 ++ ((t.autoCollapse target limit).1.autoCollapse target more).2) := by
  induction limit generalizing t with
  | zero => rw [Nat.zero_add, autoCollapse, List.nil_append]
  | succ limit ih =>
    rw [Nat.succ_add]
    rcases autoCollapse_succ t target limit with ⟨hsettled, heq⟩ | ⟨id, hnot, hchosen, heq⟩
    · rw [heq, hsettled.autoCollapse_eq, hsettled.autoCollapse_eq, List.nil_append]
    · rcases autoCollapse_succ t target (limit + more) with ⟨hsettled, -⟩ | ⟨id', -, hchosen', heq'⟩
      · exact absurd hsettled hnot
      · obtain rfl : id = id' := Option.some.inj (hchosen.symm.trans hchosen')
        rw [heq', heq, ih, List.cons_append]

theorem autoCollapse_eq_nil_iff (t : Tree α) (target limit : Nat) :
    (t.autoCollapse target limit).2 = [] ↔ limit = 0 ∨ t.Settled target := by
  cases limit with
  | zero => exact ⟨fun _ => Or.inl rfl, fun _ => rfl⟩
  | succ limit =>
    rcases autoCollapse_succ t target limit with ⟨hsettled, heq⟩ | ⟨id, hnot, -, heq⟩
    · rw [heq]
      exact ⟨fun _ => Or.inr hsettled, fun _ => rfl⟩
    · rw [heq]
      exact ⟨fun h => absurd h (List.cons_ne_nil _ _), fun h => absurd (h.resolve_left (Nat.succ_ne_zero limit)) hnot⟩

end Tree

namespace Layout

open DaxPlan.Tree

variable {α : Type}

/-- What an engine does with the folds of the tree. -/
theorem engine_autoCollapse {e : Engine α} {target limit : Nat} (htarget : e.config.autoCollapseTarget = target)
    (hlimit : e.config.autoCollapseMaxIterations = limit) (p : Plan α) :
    e.autoCollapse p = (if (p.tree.autoCollapse target limit).2.isEmpty then e else { e with state := .unlaid },
      { p with tree := (p.tree.autoCollapse target limit).1 }, (p.tree.autoCollapse target limit).2.length) := by
  subst htarget hlimit
  rfl

/-- Auto-collapse called twice folds what one call with twice the limit would fold. The second call folds nothing and changes
nothing if the first has folded less than the limit allows, and in general exactly if the limit allows nothing or the first call
has left nothing to do. -/
theorem autoCollapse_again (e : Engine α) (p : Plan α) :
    let limit := e.config.autoCollapseMaxIterations
    let target := e.config.autoCollapseTarget
    let first := e.autoCollapse p
    let second := first.1.autoCollapse first.2.1
    (second.2.1.tree = (p.tree.autoCollapse target (limit + limit)).1 ∧
        first.2.2 + second.2.2 = (p.tree.autoCollapse target (limit + limit)).2.length) ∧
      (first.2.2 < limit → second = (first.1, first.2.1, 0)) ∧
      (second.2.2 = 0 ↔ limit = 0 ∨ first.2.1.tree.Settled target) := by
  intro limit target first second
  have hconfig : first.1.config = e.config := by
    rw [show first = e.autoCollapse p from rfl, engine_autoCollapse rfl rfl]
    dsimp only
    split <;> rfl
  have htarget : first.1.config.autoCollapseTarget = target := by rw [hconfig]
  have hlimit : first.1.config.autoCollapseMaxIterations = limit := by rw [hconfig]
  have hsecond : second = _ := engine_autoCollapse htarget hlimit first.2.1
  refine ⟨?_, fun hless => ?_, ?_⟩
  · rw [hsecond, autoCollapse_add, List.length_append]
    exact ⟨rfl, rfl⟩
  · have hsettled : first.2.1.tree.Settled target := autoCollapse_settled hless
    rw [hsecond, hsettled.autoCollapse_eq]
    rfl
  · rw [← autoCollapse_eq_nil_iff, ← List.length_eq_zero_iff, hsecond]

/-- With room for three of the four leaves one fold is enough, and calling again leaves the engine and the plan as they are. -/
theorem autoCollapse_again_three :
    let row (level : Nat) : Row := ⟨1, level, "", "", .unknown, none, none⟩
    let p : Plan Rat := Plan.parsed .physical "" (Tree.ofRows ([0, 1, 2, 2, 1, 2, 2].map row))
    let e : Engine Rat := Engine.new (LayoutConfig.standard.withAutoCollapseTarget 3)
    let first := e.autoCollapse p
    first.2.2 = 1 ∧ first.1.autoCollapse first.2.1 = (first.1, first.2.1, 0) := by
  intro row p e
  have hone : (e.autoCollapse p).2.2 = 1 := by decide
  have hlimit : e.config.autoCollapseMaxIterations = 100 := rfl
  -- the folds are not to be computed again
  clear_value e p
  have hless : (e.autoCollapse p).2.2 < e.config.autoCollapseMaxIterations := by
    rw [hone, hlimit]
    decide
  exact ⟨hone, (autoCollapse_again e p).2.1 hless⟩

/-- With room for two of the four leaves two folds are needed. Where a call may fold one only, the first call folds one, and the
second the other. -/
theorem autoCollapse_continues :
    let row (level : Nat) : Row := ⟨1, level, "", "", .unknown, none, none⟩
    let p : Plan Rat := Plan.parsed .physical "" (Tree.ofRows ([0, 1, 2, 2, 1, 2, 2].map row))
    let config : LayoutConfig Rat := (LayoutConfig.standard.withAutoCollapseTarget 2).withAutoCollapseMaxIterations 1
    let first := (Engine.new config).autoCollapse p
    let second := first.1.autoCollapse first.2.1
    p.tree.WellFormed ∧ first.2.2 = 1 ∧ second.2.2 = 1 ∧
      (first.2.1.tree.get? 4).map Node.isCollapsed = some false ∧ (second.2.1.tree.get? 4).map Node.isCollapsed = some true := by
  intro row p config first second
  have hp : p.tree.WellFormed := by
    rw [show p.tree = Tree.ofRows ([0, 1, 2, 2, 1, 2, 2].map row) from Plan.tree_parsed _ _ _]
    exact Outline.ofRows_wellFormed _
  exact ⟨hp, by decide, by decide, by decide, by decide⟩

end Layout

end DaxPlan
